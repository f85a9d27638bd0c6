import TagLift.Proofs.Migration.Printable
import TagLift.Proofs.Print.Gap
import TagLift.Proofs.Tree.ReadFrom

/-!
# Files that ask for nothing

A class whose doc comments ask for no attribute is its own migrated form, so a unit of such classes
is left as it is and the ledger stays empty. A unit that is compared with itself needs no edit,
because each statement is recognised by its span at the head of what is left, even where spans
occur twice. Without an edit there is no layout either, so the source is printed as it was.
-/

namespace TagLift

/-! ## Classes that ask for nothing -/

namespace Directives

theorem methodKinds_of_onMethod_eq_nil {found : Directives} (nothing : found.onMethod = []) :
    found.methodKinds = [] := by
  obtain ⟨test, groups, covers, dataProviders⟩ := found
  simp_all [onMethod, methodKinds, dataProvider?]

theorem classKinds_of_onClass_eq_nil {found : Directives} (nothing : found.onClass = []) :
    found.classKinds = [] := by
  simpa [onClass, classKinds] using nothing

end Directives

theorem Declaration.migratedMethod_of_onMethod_eq_nil {decl : Declaration}
    (nothing : decl.found.onMethod = []) : decl.migratedMethod = decl := by
  rw [migratedMethod, nothing, Directives.methodKinds_of_onMethod_eq_nil nothing, pushAll_nil,
    strip_nil_kinds]

theorem Declaration.migratedOwn_of_onClass_eq_nil {decl : Declaration}
    (nothing : decl.found.onClass = []) : decl.migratedOwn = decl := by
  rw [migratedOwn, nothing, Directives.classKinds_of_onClass_eq_nil nothing, pushAll_nil,
    strip_nil_kinds]

namespace ClassDecl

/-- No directive is found in the doc comments of the methods, and no group in that of a class
proper. -/
def AsksNothing (decl : ClassDecl) : Prop :=
  (decl.kind = .cls → decl.decl.found.groups = []) ∧ ∀ method ∈ decl.methods, method.found.isEmpty

instance (decl : ClassDecl) : Decidable decl.AsksNothing :=
  inferInstanceAs (Decidable (_ ∧ _))

variable {decl : ClassDecl}

theorem AsksNothing.directives_eq_nil (asks : decl.AsksNothing) : decl.directives = [] := by
  obtain ⟨own, methods⟩ := asks
  have found : ∀ method ∈ decl.methods, method.found = .none :=
    fun method member => (Directives.isEmpty_iff _).1 (methods method member)
  have onMethods : decl.methods.flatMap (·.found.onMethod) = [] :=
    List.flatMap_eq_nil_iff.2 fun method member => by rw [found method member]; rfl
  have covers : decl.methods.flatMap (·.found.covers) = [] :=
    List.flatMap_eq_nil_iff.2 fun method member => by rw [found method member]; rfl
  by_cases proper : decl.kind = .cls
  · simp [directives, coveredRefs, onMethods, covers, Directives.onClass, own proper]
  · simp [directives, onMethods, proper]

/-- A class that asks for no attribute is its own migrated form. -/
theorem migrated_of_directives_eq_nil (nothing : decl.directives = []) : decl.migrated = decl := by
  obtain ⟨⟨own, onMethods⟩, covers⟩ : ((if decl.kind = .cls then decl.decl.found.onClass else []) =
      [] ∧ decl.methods.flatMap (·.found.onMethod) = []) ∧
      (if decl.kind = .cls then decl.coveredRefs.map Directive.covers else []) = [] := by
    simpa only [directives, List.append_eq_nil_iff] using nothing
  have methods : decl.methods.map Declaration.migratedMethod = decl.methods :=
    (List.map_congr_left fun method member => Declaration.migratedMethod_of_onMethod_eq_nil
      (List.flatMap_eq_nil_iff.1 onMethods method member)).trans (List.map_id _)
  by_cases proper : decl.kind = .cls
  · rw [if_pos proper] at own covers
    simp only [migrated, methods, if_pos proper, covers,
      Declaration.migratedOwn_of_onClass_eq_nil own, Declaration.pushAll_nil]
  · simp only [migrated, methods, if_neg proper]

end ClassDecl

namespace Stmt

theorem migrated_of_directives_eq_nil {stmt : Stmt}
    (nothing : ∀ decl ∈ stmt.classes, decl.directives = []) : stmt.migrated = stmt := by
  cases stmt with
  | classLike decl =>
      have nothing := nothing decl List.mem_cons_self
      rw [migrated, ClassDecl.migrated_of_directives_eq_nil nothing]
  | enclosing span classes =>
      have same : classes.map ClassDecl.migrated = classes :=
        (List.map_congr_left fun decl member =>
          ClassDecl.migrated_of_directives_eq_nil (nothing decl member)).trans (List.map_id _)
      rw [migrated, same]
  | nspace | uses | inclusion | declare | other => rfl

theorem importNames_eq_nil_iff {classes : List ClassDecl} :
    importNames classes = [] ↔ ∀ decl ∈ classes, decl.directives = [] := by
  rw [importNames, List.map_eq_nil_iff, List.flatMap_eq_nil_iff]

theorem bodyMigrated_of_directives_eq_nil {body : List Stmt}
    (nothing : ∀ decl ∈ body.flatMap classes, decl.directives = []) : bodyMigrated body = body := by
  have names : requiredNames (body.flatMap classes) = [] := by
    rw [requiredNames, importNames_eq_nil_iff.2 nothing]
    rfl
  have same : body.map migrated = body := by
    refine (List.map_congr_left fun stmt member => ?_).trans (List.map_id _)
    exact migrated_of_directives_eq_nil fun decl inside =>
      nothing decl (List.mem_flatMap.2 ⟨stmt, member, inside⟩)
  rw [bodyMigrated, names, same]
  rfl

theorem topMigrated_of_directives_eq_nil {stmt : Stmt}
    (nothing : ∀ decl ∈ stmt.topClasses, decl.directives = []) : stmt.topMigrated = stmt := by
  rcases stmt.nspace_or_plain with ⟨head, body, rfl⟩ | plain
  · rw [topMigrated, bodyMigrated_of_directives_eq_nil nothing]
  · rw [topMigrated_of_not_isNamespace plain]
    cases stmt with
    | nspace => cases plain
    | classLike | enclosing | uses | inclusion | declare | other =>
        exact migrated_of_directives_eq_nil nothing

end Stmt

namespace ClassDecl

/-- Where nothing is asked for, no measure that is zero on equal declarations counts anything. -/
theorem totals_of_directives_eq_nil {measure : Declaration → Declaration → Nat}
    (zero : ∀ decl, measure decl decl = 0) {classes : List ClassDecl}
    (nothing : ∀ decl ∈ classes, decl.directives = []) : totals measure classes = 0 := by
  refine List.sum_eq_zero_iff_forall_eq_nat.2 fun count counted => ?_
  obtain ⟨decl, member, rfl⟩ := List.mem_map.1 counted
  rw [total, migrated_of_directives_eq_nil (nothing decl member)]
  refine List.sum_eq_zero_iff_forall_eq_nat.2 fun count counted => ?_
  simp only [List.zipWith_self, List.mem_map] at counted
  obtain ⟨inner, -, rfl⟩ := counted
  exact zero inner

end ClassDecl

theorem Migration.recordTopStmt_of_directives_eq_nil {stmt : Stmt}
    (nothing : ∀ decl ∈ stmt.topClasses, decl.directives = []) (ledger : Ledger) (index : Nat) :
    recordTopStmt ledger (stmt, index) = ledger := by
  rw [recordTopStmt, Stmt.importNames_eq_nil_iff.2 nothing,
    ClassDecl.totals_of_directives_eq_nil Declaration.addedGroups_self nothing,
    ClassDecl.totals_of_directives_eq_nil Declaration.rewrittenDocs_self nothing,
    Ledger.recordIn_nil]

theorem Migration.foldl_recordTopStmt_of_directives_eq_nil {places : List (Stmt × Nat)}
    (nothing : ∀ place ∈ places, ∀ decl ∈ place.1.topClasses, decl.directives = [])
    (ledger : Ledger) : places.foldl recordTopStmt ledger = ledger := by
  induction places with
  | nil => rfl
  | cons place places ih =>
      obtain ⟨here, later⟩ := List.forall_mem_cons.1 nothing
      rw [List.foldl_cons, recordTopStmt_of_directives_eq_nil here, ih later]

namespace SourceUnit

variable {unit : SourceUnit}

theorem migrate_of_directives_eq_nil (nothing : ∀ decl ∈ unit.classes, decl.directives = []) :
    unit.migrate = (unit, .empty) := by
  have each : ∀ stmt ∈ unit.stmts, ∀ decl ∈ stmt.topClasses, decl.directives = [] :=
    fun stmt member decl inside => nothing decl (List.mem_flatMap.2 ⟨stmt, member, inside⟩)
  have stmts : unit.stmts.map Stmt.topMigrated = unit.stmts :=
    (List.map_congr_left fun stmt member =>
      Stmt.topMigrated_of_directives_eq_nil (each stmt member)).trans (List.map_id _)
  have ledger : unit.stmts.zipIdx.foldl Migration.recordTopStmt .empty = .empty :=
    Migration.foldl_recordTopStmt_of_directives_eq_nil
      (fun place member => each place.1 (List.fst_mem_of_mem_zipIdx member)) .empty
  rw [migrate_eq, stmts, ledger]

/-- Every directive requires a name, so the ledger of a migration tells whether one was found. -/
theorem migrate_required_eq_nil_iff :
    unit.migrate.2.required = [] ↔ ∀ decl ∈ unit.classes, decl.directives = [] := by
  constructor
  · intro empty decl declared
    obtain ⟨stmt, member, inside⟩ := List.mem_flatMap.1 declared
    obtain ⟨index, bound, rfl⟩ := List.getElem_of_mem member
    refine Stmt.importNames_eq_nil_iff.1 (List.eq_nil_iff_forall_not_mem.2 fun name asked => ?_)
      decl inside
    have entry : (unit.stmts[index].scope index, name) ∈ unit.migrate.2.required := by
      rw [migrate_eq, Migration.mem_foldl_recordTopStmt]
      exact .inr ⟨(_, index),
        List.mk_mem_zipIdx_iff_getElem?.2 (List.getElem?_eq_getElem bound), rfl, asked⟩
    rw [empty] at entry
    cases entry
  · intro nothing
    rw [migrate_of_directives_eq_nil nothing]
    rfl

end SourceUnit

/-! ## Units compared with themselves -/

namespace Print.Page

variable (page : Page) {source : Text} {root : Node}

theorem docEdit_self (decl : Declaration) : docEdit decl decl = [] := by
  cases doc : decl.doc with
  | none => simp [docEdit, doc]
  | some found => cases span : found.span <;> simp [docEdit, doc, span]

theorem diffDeclaration_self {decl : Declaration} (read : decl.ReadFrom source root) :
    page.diffDeclaration decl decl = [] := by
  have old : decl.groups.filter (·.span.isNone) = [] := by
    rw [List.filter_eq_nil_iff]
    intro group member
    simp [Option.isSome_iff_ne_none.1 (read.groups group member)]
  simp [diffDeclaration, docEdit_self, groupEdit, old]

theorem diffClass_self {decl : ClassDecl} (read : decl.ReadFrom source root) :
    page.diffClass decl decl = [] := by
  obtain ⟨own, methods⟩ := List.forall_mem_cons.1 read
  rw [diffClass, page.diffDeclaration_self own, List.nil_append, List.zip, List.zipWith_self,
    List.flatMap_map, List.flatMap_eq_nil_iff]
  exact fun method member => page.diffDeclaration_self (methods method member)

/-- Statements of the source whose insides need no edit need none. -/
theorem diffStmts_self_of_each {stmts : List Stmt}
    (each : ∀ stmt ∈ stmts, stmt.ReadFrom source root ∧ page.diffStmt stmt stmt = [])
    (container : Container) : page.diffStmts container none stmts [] stmts = [] := by
  have same : List.Forall₂ (fun old new => old.span?.isSome ∧ new.span? = old.span?)
      stmts stmts := by
    rw [List.forall₂_same]
    intro stmt member
    obtain ⟨span, spanned⟩ := (each stmt member).1.exists_span?
    exact ⟨by simp [spanned], rfl⟩
  rw [diffStmts_eq_flatMap_zip page container same, List.zip, List.zipWith_self, List.flatMap_map,
    List.flatMap_eq_nil_iff]
  exact fun stmt member => (each stmt member).2

theorem diffStmt_self {stmt : Stmt} (read : stmt.ReadFrom source root) :
    page.diffStmt stmt stmt = [] := by
  induction read with
  | nspace head each ih =>
      exact page.diffStmts_self_of_each (fun stmt member => ⟨each stmt member, ih stmt member⟩) _
  | classLike read => exact page.diffClass_self read
  | enclosing span each =>
      rw [diffStmt, List.zip, List.zipWith_self, List.flatMap_map, List.flatMap_eq_nil_iff]
      exact fun decl member => page.diffClass_self (each decl member)
  | uses | inclusion | declare | other => rfl

end Print.Page

namespace SourceUnit

/-- A unit compared with itself needs no edit. -/
theorem structuralEdits_self (source : Text) (root : Node) :
    structuralEdits source (ofTree source root) (ofTree source root) = [] := by
  apply Print.Page.diffStmts_self_of_each
  intro stmt member
  have read := readFrom_ofTree source root stmt member
  exact ⟨read, Print.Page.diffStmt_self _ read⟩

end SourceUnit

/-- The source and the ledger are left alone exactly if no class asks for an attribute. -/
theorem migrateTree_eq_source_iff {source : Text} {root : Node} :
    migrateTree source root = .ok ⟨⟨source, 0⟩, false, .empty⟩ ↔
      ∀ decl ∈ (SourceUnit.ofTree source root).classes, decl.directives = [] := by
  rw [migrateTree_eq_map]
  constructor
  · intro unchanged
    have ledger : (SourceUnit.ofTree source root).migrateAndResolve.2.2 = .empty := by
      cases printed : SourceUnit.print source (.ofTree source root)
          (SourceUnit.ofTree source root).migrateAndResolve.1 with
      | error failure =>
          rw [printed] at unchanged
          cases unchanged
      | ok text =>
          rw [printed] at unchanged
          exact congrArg Migrated.ledger (Except.ok.inj unchanged)
    rw [SourceUnit.migrateAndResolve_eq] at ledger
    exact SourceUnit.migrate_required_eq_nil_iff.1 (congrArg Ledger.required ledger)
  · intro nothing
    have migrated := SourceUnit.migrate_of_directives_eq_nil nothing
    have kept : (SourceUnit.ofTree source root).migrateAndResolve =
        (.ofTree source root, false, .empty) := by
      simp [SourceUnit.migrateAndResolve, migrated, Ledger.requiresAny, Ledger.empty]
    rw [kept, SourceUnit.print, SourceUnit.structuralEdits_self]
    rfl

/-- A file in which no doc comment of a method holds a directive and no doc comment of a class
proper holds a group is printed as it was, whatever else it holds and whatever its tree is. Nothing
is counted in the ledger and no import is required. -/
theorem migrateTree_of_asksNothing {source : Text} {root : Node}
    (asks : ∀ decl ∈ (SourceUnit.ofTree source root).classes, decl.AsksNothing) :
    migrateTree source root = .ok ⟨⟨source, 0⟩, false, .empty⟩ :=
  migrateTree_eq_source_iff.2 fun decl member => (asks decl member).directives_eq_nil

/-- Blank lines, imports out of order and one import node twice, a covered method in the doc comment
of a class, a group in that of a trait: all stays. -/
theorem migrateTree_of_trait_group :
    ∃ (source : Text) (root : Node), (SourceUnit.ofTree source root).classes.length = 2 ∧
      migrateTree source root = .ok ⟨⟨source, 0⟩, false, .empty⟩ := by
  let source := "<?php\n\n\n\nuse B;\nuse A;\n/** @covers X::y */\nclass C \x7b\x7d\n".toList ++
    "/** @group g */\ntrait T \x7b function m() \x7b\x7d \x7d\n".toList
  let root : Node :=
    ⟨.other, ⟨0, 98⟩, true,
      [⟨.openTag, ⟨0, 5⟩, true, []⟩, ⟨.useDecl, ⟨9, 15⟩, true, []⟩,
        ⟨.useDecl, ⟨16, 22⟩, true, []⟩, ⟨.useDecl, ⟨16, 22⟩, true, []⟩,
        ⟨.comment, ⟨23, 42⟩, true, []⟩,
        ⟨.classDecl, ⟨43, 53⟩, true, [⟨.members, ⟨51, 53⟩, true, []⟩]⟩,
        ⟨.comment, ⟨54, 69⟩, true, []⟩,
        ⟨.traitDecl, ⟨70, 97⟩, true,
          [⟨.members, ⟨78, 97⟩, true, [⟨.method, ⟨80, 95⟩, true, []⟩]⟩]⟩]⟩
  have asks : ∀ decl ∈ (SourceUnit.ofTree source root).classes, decl.AsksNothing := by
    decide +kernel
  exact ⟨source, root, by decide +kernel, migrateTree_of_asksNothing asks⟩

end TagLift
