import TagLift.Proofs.Migration.Scopes

/-!
# Migrating a migrated unit

A second migration finds at most what the first one found. What it finds was stripped with the same
kinds before, and its groups are already there, except that a data provider may move up to be the
first one. So only a data provider can be new. The required names are among those of the first
migration, so no import is missing and resolving has nothing to do.
-/

namespace TagLift

/-! ## Units that differ in data providers only -/

/-- The same declaration, but for at most one group for a data provider at the end. -/
def Declaration.SameButProvider (old new : Declaration) : Prop :=
  ∃ provider : Option Text, new = { old with
    groups := old.groups ++
      provider.toList.map fun method => (Directive.dataProvider method).toGroup }

/-- The same class, but for data providers of its methods. -/
structure ClassDecl.SameButProviders (old new : ClassDecl) : Prop where
  kind : new.kind = old.kind
  decl : new.decl = old.decl
  methods : List.Forall₂ Declaration.SameButProvider old.methods new.methods

/-- The same statement, but for data providers of methods. -/
inductive Stmt.SameButProviders : Stmt → Stmt → Prop where
  | same (stmt : Stmt) : SameButProviders stmt stmt
  | classLike {old new : ClassDecl} (decls : old.SameButProviders new) :
      SameButProviders (.classLike old) (.classLike new)
  | enclosing (span : Span) {old new : List ClassDecl}
      (classes : List.Forall₂ ClassDecl.SameButProviders old new) :
      SameButProviders (.enclosing span old) (.enclosing span new)
  | nspace (head : NamespaceHead) {old new : List Stmt}
      (bodies : List.Forall₂ SameButProviders old new) :
      SameButProviders (.nspace head old) (.nspace head new)

/-- The same unit, but for data providers of methods. -/
structure SourceUnit.SameButProviders (old new : SourceUnit) : Prop where
  stmts : List.Forall₂ Stmt.SameButProviders old.stmts new.stmts
  headerEnd : new.headerEnd = old.headerEnd
  literals : new.literals = old.literals

/-! ## Groups that are already there -/

namespace AttributeGroup

/-- Groups that are there are not pushed again. -/
theorem foldl_pushUnique_of_isIn {pushed groups : List AttributeGroup}
    (present : ∀ group ∈ pushed, group.isIn groups) : pushed.foldl pushUnique groups = groups := by
  induction pushed with
  | nil => rfl
  | cons group pushed ih =>
      rw [List.foldl_cons, pushUnique, if_pos (present group (by simp))]
      exact ih fun other member => present other (by simp [member])

end AttributeGroup

/-! ## Directives that were found before -/

namespace Directives

/-- What the doc comment of a method asks for, but for the data provider. -/
def marks (found : Directives) : List Directive :=
  (if found.test then [.test] else []) ++ found.groups.map .group

theorem onMethod_eq (found : Directives) :
    found.onMethod = found.marks ++ found.dataProvider?.toList.map .dataProvider := rfl

theorem within_self (found : Directives) : found.Within found :=
  ⟨id, .refl _, .refl _, .refl _⟩

namespace Within

variable {found others : Directives} (within : found.Within others)

include within

theorem groups_ne_nil (some : found.groups ≠ []) : others.groups ≠ [] := by
  intro none
  have groups := within.groups
  rw [none, List.sublist_nil] at groups
  exact some groups

theorem dataProviders_ne_nil (some : found.dataProviders ≠ []) : others.dataProviders ≠ [] := by
  intro none
  have dataProviders := within.dataProviders
  rw [none, List.sublist_nil] at dataProviders
  exact some dataProviders

theorem classKinds_subset : found.classKinds ⊆ others.classKinds := by
  intro kind member
  by_cases none : found.groups = []
  · simp [classKinds, none] at member
  · simpa [classKinds, none, within.groups_ne_nil none] using member

theorem methodKinds_subset : found.methodKinds ⊆ others.methodKinds := by
  intro kind member
  rw [mem_methodKinds] at member ⊢
  rcases member with ⟨rfl, test⟩ | ⟨rfl, groups⟩ | ⟨rfl, dataProviders⟩
  · exact .inl ⟨rfl, within.test test⟩
  · exact .inr (.inl ⟨rfl, within.groups_ne_nil groups⟩)
  · exact .inr (.inr ⟨rfl, within.dataProviders_ne_nil dataProviders⟩)

theorem onClass_subset : found.onClass ⊆ others.onClass :=
  List.map_subset _ within.groups.subset

theorem marks_subset : found.marks ⊆ others.marks := by
  intro directive member
  rcases List.mem_append.1 member with test | group
  · split at test
    next found => exact List.mem_append_left _ (by simpa [within.test found] using test)
    · cases test
  · exact List.mem_append_right _ (within.onClass_subset group)

/-- The names required for a method are among those required before, even if another data provider
is now the first. -/
theorem importNames_onMethod_subset :
    found.onMethod.map Directive.importName ⊆ others.onMethod.map Directive.importName := by
  rw [onMethod_eq, onMethod_eq, List.map_append, List.map_append]
  apply List.append_subset.2
  constructor
  · exact List.subset_append_of_subset_left _ (List.map_subset _ within.marks_subset)
  · cases first : found.dataProviders with
    | nil => simp [dataProvider?, first]
    | cons method methods =>
        obtain ⟨other, rest, equal⟩ := List.exists_cons_of_ne_nil
          (within.dataProviders_ne_nil (by simp [first]))
        apply List.subset_append_of_subset_right
        have same : (Directive.dataProvider method).importName =
            (Directive.dataProvider other).importName := rfl
        simp [dataProvider?, first, equal, same]

end Within

end Directives

/-! ## Declarations -/

namespace Declaration

variable (decl : Declaration)

theorem strip_strip {kinds fewer : List DirectiveKind} (subset : fewer ⊆ kinds) :
    (decl.strip kinds).strip fewer = decl.strip kinds := by
  obtain ⟨name, span, anchor, doc, groups⟩ := decl
  cases doc with
  | none => rfl
  | some doc => simp [strip, stripDirectives_stripDirectives subset]

/-- Stripping brings no directive to light. -/
theorem found_strip_within (kinds : List DirectiveKind) :
    (decl.strip kinds).found.Within decl.found := by
  obtain ⟨name, span, anchor, doc, groups⟩ := decl
  cases doc with
  | none => exact Directives.within_self _
  | some doc => exact Directives.ofDoc_stripDirectives_within kinds doc.text

theorem pushAll_of_isIn {decl : Declaration} {directives : List Directive}
    (present : ∀ directive ∈ directives, directive.toGroup.isIn decl.groups) :
    decl.pushAll directives = decl := by
  have same : (directives.map Directive.toGroup).foldl AttributeGroup.pushUnique decl.groups =
      decl.groups := by
    apply AttributeGroup.foldl_pushUnique_of_isIn
    intro group member
    obtain ⟨directive, asked, rfl⟩ := List.mem_map.1 member
    exact present directive asked
  rw [pushAll, same]

theorem found_migratedMethod_within : decl.migratedMethod.found.Within decl.found :=
  (decl.pushAll decl.found.onMethod).found_strip_within decl.found.methodKinds

/-- All that a second migration may push onto a method is the data provider that is now the first
one. -/
theorem migratedMethod_migratedMethod_eq_pushAll :
    decl.migratedMethod.migratedMethod = decl.migratedMethod.pushAll
      (decl.migratedMethod.found.dataProvider?.toList.map .dataProvider) := by
  have within := decl.found_migratedMethod_within
  have stripped : decl.migratedMethod.strip decl.migratedMethod.found.methodKinds =
      decl.migratedMethod := strip_strip _ within.methodKinds_subset
  have absorbed : decl.migratedMethod.pushAll decl.migratedMethod.found.marks =
      decl.migratedMethod := by
    apply pushAll_of_isIn
    intro directive member
    exact decl.isIn_pushAll (List.mem_append_left _ (within.marks_subset member))
  rw [migratedMethod, ← pushAll_strip, stripped, Directives.onMethod_eq, pushAll_append, absorbed]

/-- A migrated method can only gain a data provider. -/
theorem migratedMethod_sameButProvider :
    decl.migratedMethod.SameButProvider decl.migratedMethod.migratedMethod := by
  rw [migratedMethod_migratedMethod_eq_pushAll]
  cases decl.migratedMethod.found.dataProvider? with
  | none => exact ⟨none, by simp⟩
  | some method =>
      by_cases present : (Directive.dataProvider method).toGroup.isIn decl.migratedMethod.groups
      · exact ⟨none, by simp [pushAll, AttributeGroup.pushUnique, present]⟩
      · exact ⟨some method, by simp [pushAll, AttributeGroup.pushUnique, present]⟩

/-- Migrating a class's own declaration again changes nothing, whatever it covers by then. -/
theorem migratedOwn_pushAll_migratedOwn {covered fewer : List Directive}
    (subset : fewer ⊆ covered) :
    (decl.migratedOwn.pushAll covered).migratedOwn.pushAll fewer =
      decl.migratedOwn.pushAll covered := by
  have all : decl.migratedOwn.pushAll covered =
      (decl.pushAll (decl.found.onClass ++ covered)).strip decl.found.classKinds := by
    rw [migratedOwn, pushAll_strip, pushAll_append]
  have within : (decl.migratedOwn.pushAll covered).found.Within decl.found := by
    rw [all]
    exact found_strip_within _ _
  have absorbed : ∀ directives ⊆ decl.found.onClass ++ covered,
      (decl.migratedOwn.pushAll covered).pushAll directives =
        decl.migratedOwn.pushAll covered := by
    intro directives known
    apply pushAll_of_isIn
    intro directive member
    rw [all]
    exact decl.isIn_pushAll (known member)
  have stripped : (decl.migratedOwn.pushAll covered).strip
      (decl.migratedOwn.pushAll covered).found.classKinds = decl.migratedOwn.pushAll covered := by
    have fewer := within.classKinds_subset
    rw [all] at fewer ⊢
    exact strip_strip _ fewer
  rw [migratedOwn, absorbed _ (List.subset_append_of_subset_left _ within.onClass_subset),
    stripped, absorbed _ (List.subset_append_of_subset_right _ subset)]

end Declaration

/-! ## Classes -/

namespace ClassDecl

variable (decl : ClassDecl)

theorem coveredRefs_migrated_subset : decl.migrated.coveredRefs ⊆ decl.coveredRefs := by
  intro ref member
  simp only [coveredRefs, migrated, List.mem_eraseDups, List.mem_flatMap, List.mem_map] at member ⊢
  obtain ⟨_, ⟨method, inside, rfl⟩, covered⟩ := member
  exact ⟨method, inside, method.found_migratedMethod_within.covers.subset covered⟩

theorem found_migrated_decl_within : decl.migrated.decl.found.Within decl.decl.found := by
  by_cases proper : decl.kind = .cls
  · rw [decl.migrated_decl_of_cls proper]
    exact Declaration.found_strip_within _ _
  · rw [decl.migrated_decl_of_not_cls proper]
    exact Directives.within_self _

/-- A migrated class can only gain data providers. -/
theorem migrated_sameButProviders : decl.migrated.SameButProviders decl.migrated.migrated := by
  refine ⟨rfl, ?_, ?_⟩
  · by_cases proper : decl.kind = .cls
    · have covered := List.map_subset Directive.covers decl.coveredRefs_migrated_subset
      rw [decl.migrated.migrated_decl_of_cls proper,
        decl.migrated_decl_of_cls proper]
      exact decl.decl.migratedOwn_pushAll_migratedOwn covered
    · exact decl.migrated.migrated_decl_of_not_cls proper
  · change List.Forall₂ _ (decl.methods.map _) ((decl.methods.map _).map _)
    simp only [List.map_map, List.forall₂_map_left_iff, List.forall₂_map_right_iff,
      List.forall₂_same]
    exact fun method _ => method.migratedMethod_sameButProvider

/-- A migrated class requires nothing that it did not require before. -/
theorem importNames_migrated_subset :
    decl.migrated.directives.map Directive.importName ⊆
      decl.directives.map Directive.importName := by
  have own : (if decl.kind = .cls then decl.migrated.decl.found.onClass else []) ⊆
      if decl.kind = .cls then decl.decl.found.onClass else [] := by
    split
    · exact decl.found_migrated_decl_within.onClass_subset
    · exact List.Subset.refl _
  have covered : (if decl.kind = .cls then decl.migrated.coveredRefs.map Directive.covers else []) ⊆
      if decl.kind = .cls then decl.coveredRefs.map Directive.covers else [] := by
    split
    · exact List.map_subset _ decl.coveredRefs_migrated_subset
    · exact List.Subset.refl _
  have methods : (decl.migrated.methods.flatMap (·.found.onMethod)).map Directive.importName ⊆
      (decl.methods.flatMap (·.found.onMethod)).map Directive.importName := by
    simp only [migrated, List.map_flatMap, List.flatMap_map]
    intro name member
    obtain ⟨method, inside, asked⟩ := List.mem_flatMap.1 member
    exact List.mem_flatMap.2
      ⟨method, inside, method.found_migratedMethod_within.importNames_onMethod_subset asked⟩
  intro name member
  simp only [directives, List.map_append, List.mem_append] at member ⊢
  rcases member with (inOwn | inMethods) | inCovered
  · exact .inl (.inl (List.map_subset _ own inOwn))
  · exact .inl (.inr (methods inMethods))
  · exact .inr (List.map_subset _ covered inCovered)

end ClassDecl

/-! ## Statements -/

namespace Stmt

theorem migrated_of_isUse {stmt : Stmt} (use : stmt.isUse) : stmt.migrated = stmt := by
  cases stmt <;> simp_all [isUse, migrated]

theorem hasSingleImports_map_migrated (stmts : List Stmt) :
    hasSingleImports (stmts.map migrated) = hasSingleImports stmts := by
  simp [hasSingleImports, List.all_map, Function.comp_def, imports_migrated, isUse_migrated]

theorem migrated_sameButProviders (stmt : Stmt) :
    stmt.migrated.SameButProviders stmt.migrated.migrated := by
  cases stmt with
  | classLike decl => exact .classLike decl.migrated_sameButProviders
  | enclosing span classes =>
      apply SameButProviders.enclosing
      rw [List.forall₂_map_right_iff, List.forall₂_same]
      intro decl member
      obtain ⟨original, -, rfl⟩ := List.mem_map.1 member
      exact original.migrated_sameButProviders
  | nspace | uses | inclusion | declare | other => exact .same _

namespace MigratedFrom

variable {old stmts : List Stmt} (derived : MigratedFrom old stmts)

include derived

theorem sameButProviders {stmt : Stmt} (member : stmt ∈ stmts) :
    stmt.SameButProviders stmt.migrated := by
  rcases derived.isUse_or_migrated member with use | ⟨original, -, rfl⟩
  · rw [migrated_of_isUse use]
    exact .same stmt
  · exact original.migrated_sameButProviders

theorem isNamespace_eq_false (others : ∀ stmt ∈ old, stmt.isNamespace = false) {stmt : Stmt}
    (member : stmt ∈ stmts) : stmt.isNamespace = false := by
  rcases derived.isUse_or_migrated member with use | ⟨original, inside, rfl⟩
  · cases stmt <;> simp_all [isUse, isNamespace]
  · rw [isNamespace_migrated]
    exact others original inside

theorem requiredNames_subset :
    requiredNames (stmts.flatMap classes) ⊆ requiredNames (old.flatMap classes) := by
  intro name member
  rw [requiredNames, mem_sortUnique, mem_importNames] at member ⊢
  obtain ⟨decl, inside, asked⟩ := member
  rw [derived.flatMap_classes] at inside
  obtain ⟨original, declared, rfl⟩ := List.mem_map.1 inside
  have known : name ∈ original.migrated.directives.map Directive.importName := List.mem_map.2 asked
  exact ⟨original, declared, List.mem_map.1 (original.importNames_migrated_subset known)⟩

/-- A namespace that has all imports it required gets no more. -/
theorem bodyMigrated_eq (all : ImportsAll (requiredNames (old.flatMap classes)) stmts) :
    bodyMigrated stmts = stmts.map migrated := by
  have fewer : ImportsAll (requiredNames (stmts.flatMap classes)) (stmts.map migrated) := by
    intro name asked
    rw [importsClass, presentImports_map_migrated]
    exact all name (derived.requiredNames_subset asked)
  rw [bodyMigrated, insertMissing, missingImports_eq_nil fewer, List.nil_append]

theorem topSameButProviders (head : NamespaceHead)
    (all : ImportsAll (requiredNames (old.flatMap classes)) stmts) :
    (nspace head stmts).SameButProviders (nspace head stmts).topMigrated := by
  rw [topMigrated, derived.bodyMigrated_eq all]
  apply SameButProviders.nspace
  simp only [List.forall₂_map_right_iff, List.forall₂_same]
  exact fun stmt member => derived.sameButProviders member

/-- Resolved imports stay as they are. -/
theorem resolve?_eq_none
    (resolved : requiredNames (old.flatMap classes) = [] ∨
      Resolved (requiredNames (old.flatMap classes)) stmts) (afterPreamble : Bool) :
    resolve? (requiredNames (stmts.flatMap classes)) afterPreamble (stmts.map migrated) = none := by
  rcases resolved with none | resolved
  · have fewer := derived.requiredNames_subset
    rw [none, List.subset_nil] at fewer
    simp [resolve?, fewer]
  have again : Resolved (requiredNames (stmts.flatMap classes)) (stmts.map migrated) := by
    refine ⟨?_, ?_, ?_⟩
    · rw [hasSingleImports_map_migrated]
      exact resolved.single
    · rw [presentImports_map_migrated]
      exact resolved.increasing
    · rw [presentImports_map_migrated]
      exact (resolved.mono derived.requiredNames_subset).imported
  exact again.resolve?_eq_none afterPreamble

end MigratedFrom

end Stmt

/-! ## Units -/

namespace ClassDecl

/-- Migrating a migrated class rewrites no doc comment. -/
theorem total_rewrittenDocs_migrated (decl : ClassDecl) :
    decl.migrated.total Declaration.rewrittenDocs = 0 := by
  rw [total_eq, decl.migrated_sameButProviders.decl, Declaration.rewrittenDocs_self, Nat.zero_add]
  rw [List.sum_eq_zero_iff_forall_eq_nat]
  intro count member
  obtain ⟨method, inside, rfl⟩ := List.mem_map.1 member
  obtain ⟨original, -, rfl⟩ := List.mem_map.1 inside
  obtain ⟨provider, equal⟩ := original.migratedMethod_sameButProvider
  simp [Declaration.rewrittenDocs, equal]

end ClassDecl

namespace Stmt

/-- A top-level statement that a migration only gives data providers. -/
structure Settled (stmt : Stmt) : Prop where
  sameButProviders : stmt.SameButProviders stmt.topMigrated
  classes : ∀ decl ∈ stmt.topClasses, ∃ original : ClassDecl, decl = original.migrated

theorem MigratedFrom.settled_nspace {old stmts : List Stmt} (derived : MigratedFrom old stmts)
    (head : NamespaceHead) (all : ImportsAll (requiredNames (old.flatMap Stmt.classes)) stmts) :
    (nspace head stmts).Settled := by
  refine ⟨derived.topSameButProviders head all, ?_⟩
  intro decl member
  change decl ∈ stmts.flatMap Stmt.classes at member
  rw [derived.flatMap_classes] at member
  obtain ⟨original, -, rfl⟩ := List.mem_map.1 member
  exact ⟨original, rfl⟩

theorem settled_migrated {stmt : Stmt} (other : stmt.isNamespace = false) :
    stmt.migrated.Settled := by
  have sameTop : stmt.migrated.topMigrated = stmt.migrated.migrated := by
    apply topMigrated_of_not_isNamespace
    rw [isNamespace_migrated, other]
  have sameClasses : stmt.migrated.topClasses = stmt.classes.map ClassDecl.migrated := by
    cases stmt with
    | nspace => cases other
    | classLike | enclosing | uses | inclusion | declare | other => rfl
  refine ⟨?_, ?_⟩
  · rw [sameTop]
    exact stmt.migrated_sameButProviders
  · intro decl member
    rw [sameClasses] at member
    obtain ⟨original, -, rfl⟩ := List.mem_map.1 member
    exact ⟨original, rfl⟩

theorem settled_topMigrated (stmt : Stmt) : stmt.topMigrated.Settled := by
  rcases stmt.nspace_or_plain with ⟨head, body, rfl⟩ | plain
  · exact (migratedFrom_bodyMigrated body).settled_nspace head (importsAll_insertMissing _ _)
  · rw [topMigrated_of_not_isNamespace plain]
    exact settled_migrated plain

end Stmt

namespace SourceUnit

theorem sameButProviders_migrate {unit : SourceUnit}
    (settled : ∀ stmt ∈ unit.stmts, stmt.Settled) : unit.SameButProviders unit.migrate.1 := by
  rw [migrate_eq]
  refine ⟨?_, rfl, rfl⟩
  rw [List.forall₂_map_right_iff, List.forall₂_same]
  exact fun stmt member => (settled stmt member).sameButProviders

theorem stripped_migrate_of_settled {unit : SourceUnit}
    (settled : ∀ stmt ∈ unit.stmts, stmt.Settled) : unit.migrate.2.stripped = 0 := by
  rw [stripped_migrate, ClassDecl.totals]
  rw [List.sum_eq_zero_iff_forall_eq_nat]
  intro count member
  obtain ⟨decl, declared, rfl⟩ := List.mem_map.1 member
  obtain ⟨stmt, inside, declared⟩ := List.mem_flatMap.1 declared
  obtain ⟨original, rfl⟩ := (settled stmt inside).classes decl declared
  exact original.total_rewrittenDocs_migrated

/-- A file without namespaces is settled by its migration, and its imports are resolved. -/
theorem settled_of_no_nspace {unit : SourceUnit}
    (others : ∀ stmt ∈ unit.stmts, stmt.isNamespace = false) :
    (∀ stmt ∈ unit.migrateAndResolve.1.stmts, stmt.Settled) ∧
      unit.migrateAndResolve.1.migrate.1.resolveImports? unit.migrateAndResolve.1.migrate.2 =
        none := by
  rw [migrateAndResolve_of_no_nspace others]
  generalize written : (Stmt.resolve? _ true (unit.stmts.map Stmt.migrated)).getD _ = stmts
  have derived : Stmt.MigratedFrom unit.stmts stmts :=
    written ▸ (Stmt.migratedFrom_map_migrated unit.stmts).getD_resolve? _ _
  have resolved := written ▸ Stmt.resolved_getD_resolve?
    (Stmt.requiredNames (unit.stmts.flatMap Stmt.classes)) true (unit.stmts.map Stmt.migrated)
  have stillOthers : ∀ stmt ∈ stmts, stmt.isNamespace = false :=
    fun _ member => derived.isNamespace_eq_false others member
  constructor
  · intro stmt member
    rcases derived.isUse_or_migrated member with use | ⟨original, inside, rfl⟩
    · exact Stmt.migrated_of_isUse use ▸ Stmt.settled_migrated (stillOthers stmt member)
    · exact Stmt.settled_migrated (others original inside)
  · rw [resolveImports?_migrate_of_no_nspace stillOthers, derived.resolve?_eq_none resolved,
      Option.map_none]

/-- A file with namespaces is settled by its migration, and its imports are resolved. -/
theorem settled_of_nspace {unit : SourceUnit} {head : NamespaceHead}
    {before body after : List Stmt} (split : unit.stmts = before ++ .nspace head body :: after)
    (others : ∀ stmt ∈ before, stmt.isNamespace = false) :
    (∀ stmt ∈ unit.migrateAndResolve.1.stmts, stmt.Settled) ∧
      unit.migrateAndResolve.1.migrate.1.resolveImports? unit.migrateAndResolve.1.migrate.2 =
        none := by
  rw [migrateAndResolve_of_nspace split others]
  generalize written : (Stmt.resolve? _ false (Stmt.bodyMigrated body)).getD _ = stmts
  have derived : Stmt.MigratedFrom body stmts :=
    written ▸ (Stmt.migratedFrom_bodyMigrated body).getD_resolve? _ _
  have resolved := written ▸ Stmt.resolved_getD_resolve?
    (Stmt.requiredNames (body.flatMap Stmt.classes)) false (Stmt.bodyMigrated body)
  have all : Stmt.ImportsAll (Stmt.requiredNames (body.flatMap Stmt.classes)) stmts := by
    rcases resolved with none | resolved
    · simp [Stmt.ImportsAll, none]
    · exact resolved.importsAll
  constructor
  · intro stmt member
    simp only [List.mem_append, List.mem_cons, List.mem_map] at member
    rcases member with ⟨original, inside, rfl⟩ | rfl | ⟨original, -, rfl⟩
    · exact Stmt.settled_migrated (others original inside)
    · exact derived.settled_nspace head all
    · exact original.settled_topMigrated
  · rw [resolveImports?_migrate_of_nspace rfl (Stmt.isNamespace_map_migrated others),
      derived.bodyMigrated_eq all, derived.resolve?_eq_none resolved, Option.map_none]

/-- Migrating and resolving again changes nothing but possibly a data provider: no doc comment is
rewritten, no other group is added, and the imports stay as they are. -/
theorem migrateAndResolve_again (unit : SourceUnit) :
    unit.migrateAndResolve.1.SameButProviders unit.migrateAndResolve.1.migrateAndResolve.1 ∧
      unit.migrateAndResolve.1.migrate.2.stripped = 0 ∧
      unit.migrateAndResolve.1.migrate.1.resolveImports? unit.migrateAndResolve.1.migrate.2 =
        none ∧
      unit.migrateAndResolve.1.migrateAndResolve.2.1 = false := by
  obtain ⟨settled, unresolved⟩ : (∀ stmt ∈ unit.migrateAndResolve.1.stmts, stmt.Settled) ∧
      unit.migrateAndResolve.1.migrate.1.resolveImports? unit.migrateAndResolve.1.migrate.2 =
        none := by
    rcases namespace_cases unit.stmts with others | ⟨before, head, body, after, split, others⟩
    · exact settled_of_no_nspace others
    · exact settled_of_nspace split others
  refine ⟨?_, stripped_migrate_of_settled settled, unresolved, ?_⟩
  · rw [migrateAndResolve_eq unit.migrateAndResolve.1, unresolved, Option.getD_none]
    exact sameButProviders_migrate settled
  · rw [migrateAndResolve_eq unit.migrateAndResolve.1, unresolved, Option.isSome_none]

end SourceUnit

end TagLift
