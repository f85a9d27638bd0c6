import TagLift.Proofs.Migration.PerClass

/-!
# A migration class by class

The visit of a unit threads one ledger through all namespaces, classes and methods. It is shown to
be the migration of every class on its own together with a record in the ledger: the names its
directives require, and how many groups and doc comments it changed. The covered methods that wait
in the ledger are those of the class that is open, because a class is entered with none and left
with what it collected.
-/

namespace TagLift

namespace Migration

theorem run_bind_of_run {σ α β : Type} {first : StateM σ α} {second : α → StateM σ β}
    {state next : σ} {result : α} (run : first.run state = (result, next)) :
    (first >>= second).run state = (second result).run next := by
  rw [StateT.run_bind, run]
  rfl

theorem modifyGet_run {σ α : Type} (change : σ → α × σ) (state : σ) :
    (modifyGet change : StateM σ α).run state = change state := rfl

theorem addAttribute_run (decl : Declaration) (directive : Directive) (ledger : Ledger) :
    (addAttribute decl directive).run ledger =
      (decl.pushAll [directive], ledger.recordIn ledger.currentScope [directive.importName]
        (decl.addedGroups (decl.pushAll [directive])) 0) := by
  by_cases present : directive.toGroup.isIn decl.groups
  · have same : decl.pushAll [directive] = decl := by
      simp [Declaration.pushAll, AttributeGroup.pushUnique, present]
    simp [addAttribute, present, same, Ledger.requireImport_eq_recordIn]
    rfl
  · have grown : decl.pushAll [directive] =
        { decl with groups := decl.groups ++ [directive.toGroup] } := by
      simp [Declaration.pushAll, AttributeGroup.pushUnique, present]
    simp [addAttribute, present, grown, Ledger.requireImport_eq_recordIn,
      Declaration.addedGroups]
    rfl

theorem foldlM_addAttribute_run (directives : List Directive) (decl : Declaration)
    (ledger : Ledger) :
    (directives.foldlM addAttribute decl).run ledger =
      (decl.pushAll directives,
        ledger.recordIn ledger.currentScope (directives.map Directive.importName)
          (decl.addedGroups (decl.pushAll directives)) 0) := by
  induction directives generalizing decl ledger with
  | nil => simp; rfl
  | cons directive directives ih =>
      rw [List.foldlM_cons, StateT.run_bind, addAttribute_run]
      change ((directives.foldlM addAttribute (decl.pushAll [directive])).run _) = _
      rw [ih, Ledger.recordIn_currentScope, Ledger.recordIn_recordIn,
        Declaration.addedGroups_add (decl.length_le_pushAll _) (Declaration.length_le_pushAll _ _),
        ← Declaration.pushAll_append]
      rfl

theorem stripDoc_run (kinds : List DirectiveKind) (decl : Declaration) (ledger : Ledger) :
    (stripDoc kinds decl).run ledger =
      (decl.strip kinds,
        ledger.recordIn ledger.currentScope [] 0 (decl.rewrittenDocs (decl.strip kinds))) := by
  obtain ⟨name, span, anchor, doc, groups⟩ := decl
  cases doc with
  | none => rfl
  | some doc =>
      by_cases same : stripDirectives kinds doc.text = doc.text
      · simp [stripDoc, same, Declaration.strip, Declaration.rewrittenDocs]
        rfl
      · have changed : ({ doc with text := stripDirectives kinds doc.text } : DocComment) ≠ doc :=
          fun equal => same (congrArg DocComment.text equal)
        simp [stripDoc, same, Declaration.strip, Declaration.rewrittenDocs, changed]
        rfl

/-- Attributes first, then the doc comment: the common shape of all migrations. -/
theorem addAttributes_stripDoc_run (directives : List Directive) (kinds : List DirectiveKind)
    (decl : Declaration) (ledger : Ledger) :
    (do
      let decl ← directives.foldlM addAttribute decl
      stripDoc kinds decl : StateM Ledger Declaration).run ledger =
      ((decl.pushAll directives).strip kinds,
        ledger.recordIn ledger.currentScope (directives.map Directive.importName)
          (decl.addedGroups ((decl.pushAll directives).strip kinds))
          (decl.rewrittenDocs ((decl.pushAll directives).strip kinds))) := by
  rw [StateT.run_bind, foldlM_addAttribute_run]
  change (stripDoc kinds (decl.pushAll directives)).run _ = _
  rw [stripDoc_run, Ledger.recordIn_currentScope, Ledger.recordIn_recordIn, List.append_nil,
    Nat.zero_add]
  rfl

/-- The migration of a class's own doc comment. -/
theorem migrateClassDoc_run (decl : Declaration) (ledger : Ledger) :
    (migrateClassDoc decl).run ledger =
      (decl.migratedOwn,
        ledger.recordIn ledger.currentScope (decl.found.onClass.map Directive.importName)
          (decl.addedGroups decl.migratedOwn) (decl.rewrittenDocs decl.migratedOwn)) := by
  have run := addAttributes_stripDoc_run decl.found.onClass decl.found.classKinds decl ledger
  rw [Declaration.migratedOwn, ← run]
  cases doc : decl.doc with
  | none =>
      have found : decl.found = .none := by simp [Declaration.found, doc]
      simp [migrateClassDoc, doc, found, Directives.none, Directives.onClass,
        Directives.classKinds, stripDoc]
  | some comment =>
      have found : decl.found = .ofDoc comment.text := by simp [Declaration.found, doc]
      by_cases none : decl.found.groups = []
      · simp [migrateClassDoc, doc, ← found, none, Directives.onClass, Directives.classKinds,
          stripDoc]
      · simp [migrateClassDoc, doc, ← found, none, Directives.classKinds]

theorem forIn_recordCovers_run (refs : List CoversRef) (ledger : Ledger) :
    (forIn refs PUnit.unit (fun ref _ => do
      modify fun ledger : Ledger => (ledger.recordCovers ref).2
      pure (ForInStep.yield PUnit.unit)) : StateM Ledger PUnit).run ledger =
      (PUnit.unit, ledger.recordAll refs) := by
  induction refs generalizing ledger with
  | nil => rfl
  | cons ref refs ih =>
      rw [List.forIn_cons]
      exact ih _

/-- The migration of a method: the methods it covers wait, all else is done on the spot. -/
theorem migrateMethod_run (decl : Declaration) (ledger : Ledger) :
    (migrateMethod decl).run ledger =
      (decl.migratedMethod,
        (ledger.recordAll decl.found.covers).recordIn ledger.currentScope
          (decl.found.onMethod.map Directive.importName)
          (decl.addedGroups decl.migratedMethod) (decl.rewrittenDocs decl.migratedMethod)) := by
  have run := addAttributes_stripDoc_run decl.found.onMethod decl.found.methodKinds decl
    (ledger.recordAll decl.found.covers)
  rw [Ledger.recordAll_currentScope] at run
  rw [Declaration.migratedMethod, ← run]
  cases doc : decl.doc with
  | none =>
      have found : decl.found = .none := by simp [Declaration.found, doc]
      simp [migrateMethod, doc, found, Directives.none, Directives.onMethod,
        Directives.methodKinds, Directives.dataProvider?, stripDoc]
  | some comment =>
      have found : decl.found = .ofDoc comment.text := by simp [Declaration.found, doc]
      by_cases none : decl.found = .none
      · simp [migrateMethod, doc, ← found, none, Directives.none, Directives.onMethod,
          Directives.methodKinds, Directives.dataProvider?, Directives.isEmpty, stripDoc]
      · have some : decl.found.isEmpty = false := by
          rw [← Directives.isEmpty_iff] at none
          simpa using none
        simp only [migrateMethod, doc, ← found, some]
        change StateT.run (forIn _ _ _ >>= _) _ = _
        rw [StateT.run_bind, forIn_recordCovers_run]
        rfl

/-- Visits that each leave a record leave one record together. -/
theorem mapM_run {α β : Type} (refs : α → List CoversRef) {visit : α → StateM Ledger β}
    {result : α → β} {names : α → List Text} {inserted stripped : α → Nat}
    (run : ∀ item ledger, (visit item).run ledger =
      (result item, (ledger.recordAll (refs item)).recordIn ledger.currentScope (names item)
        (inserted item) (stripped item)))
    (items : List α) (ledger : Ledger) :
    (items.mapM visit).run ledger =
      (items.map result, (ledger.recordAll (items.flatMap refs)).recordIn ledger.currentScope
        (items.flatMap names) (items.map inserted).sum (items.map stripped).sum) := by
  induction items generalizing ledger with
  | nil => rfl
  | cons item items ih =>
      rw [List.mapM_cons, run_bind_of_run (run item ledger), run_bind_of_run (ih _)]
      simp only [Ledger.recordAll_recordIn, ← Ledger.recordAll_append, Ledger.recordIn_recordIn,
        Ledger.recordIn_currentScope, Ledger.recordAll_currentScope, List.flatMap_cons,
        List.map_cons, List.sum_cons]
      rfl

/-- The migration of a class, which leaves the open frames as they were. -/
theorem migrateClass_run (decl : ClassDecl) (ledger : Ledger) :
    (migrateClass decl).run ledger =
      (decl.migrated,
        ledger.recordIn ledger.currentScope (decl.directives.map Directive.importName)
          (decl.total Declaration.addedGroups) (decl.total Declaration.rewrittenDocs)) := by
  have enter : (modify (·.enterClass decl.kind decl.decl.name) : StateM Ledger Unit).run ledger =
      ((), ledger.enterClass decl.kind decl.decl.name) := rfl
  have leave := fun names inserted stripped => (modifyGet_run Ledger.leaveClass _).trans
    (ledger.leaveClass_enterClass decl.kind decl.decl.name
      (decl.methods.flatMap (·.found.covers)) ledger.currentScope names inserted stripped)
  rw [migrateClass, run_bind_of_run enter]
  by_cases proper : decl.kind = .cls
  · rw [if_pos proper, run_bind_of_run (migrateClassDoc_run _ _),
      run_bind_of_run (mapM_run (·.found.covers) migrateMethod_run _ _)]
    simp only [Ledger.recordAll_recordIn, Ledger.recordIn_currentScope,
      Ledger.enterClass_currentScope, Ledger.recordIn_recordIn]
    rw [run_bind_of_run (leave _ _ _)]
    simp only [proper]
    rw [run_bind_of_run (foldlM_addAttribute_run _ _ _)]
    simp only [Ledger.recordIn_currentScope, Ledger.recordIn_recordIn]
    have own := decl.migrated_decl_of_cls proper
    have added : decl.decl.addedGroups decl.migrated.decl =
        decl.decl.addedGroups decl.decl.migratedOwn +
          decl.decl.migratedOwn.addedGroups decl.migrated.decl := by
      rw [own]
      exact (Declaration.addedGroups_add (decl.decl.length_le_pushAll decl.decl.found.onClass)
        (Declaration.length_le_pushAll _ _)).symm
    have rewritten : decl.decl.rewrittenDocs decl.migrated.decl =
        decl.decl.rewrittenDocs decl.decl.migratedOwn := by
      rw [own]
      rfl
    rw [ClassDecl.total_eq, ClassDecl.total_eq, added, rewritten, own]
    simp [ClassDecl.migrated, ClassDecl.directives, ClassDecl.coveredRefs, proper,
      List.map_flatMap, Nat.add_assoc, Nat.add_comm, Nat.add_left_comm]
    rfl
  · rw [if_neg proper, pure_bind, run_bind_of_run (mapM_run (·.found.covers) migrateMethod_run _ _),
      Ledger.enterClass_currentScope, run_bind_of_run (leave _ _ _)]
    simp [ClassDecl.migrated, ClassDecl.directives, ClassDecl.total_eq, proper, List.map_flatMap]
    rfl

/-- Visits of what covers nothing outside itself. -/
theorem mapM_run_of_no_refs {α β : Type} {visit : α → StateM Ledger β} {result : α → β}
    {names : α → List Text} {inserted stripped : α → Nat}
    (run : ∀ item ledger, (visit item).run ledger =
      (result item, ledger.recordIn ledger.currentScope (names item) (inserted item)
        (stripped item)))
    (items : List α) (ledger : Ledger) :
    (items.mapM visit).run ledger =
      (items.map result, ledger.recordIn ledger.currentScope (items.flatMap names)
        (items.map inserted).sum (items.map stripped).sum) := by
  have all := mapM_run (fun _ => []) run items ledger
  rwa [List.flatMap_eq_nil_iff.2 (fun _ _ => rfl)] at all

/-- The migration of a statement that is no namespace. -/
theorem migrateStmt_run (stmt : Stmt) (ledger : Ledger) :
    (migrateStmt stmt).run ledger =
      (stmt.migrated,
        ledger.recordIn ledger.currentScope (Stmt.importNames stmt.classes)
          (ClassDecl.totals Declaration.addedGroups stmt.classes)
          (ClassDecl.totals Declaration.rewrittenDocs stmt.classes)) := by
  cases stmt with
  | classLike decl =>
      rw [migrateStmt, run_bind_of_run (migrateClass_run _ _)]
      simp [Stmt.migrated, Stmt.classes, Stmt.importNames, ClassDecl.totals]
      rfl
  | enclosing span classes =>
      rw [migrateStmt, run_bind_of_run (mapM_run_of_no_refs migrateClass_run _ _)]
      simp only [Stmt.importNames, Stmt.classes, List.map_flatMap]
      rfl
  | nspace | uses | inclusion | declare | other => rfl

/-- What the visit of the top-level statement at an index leaves in the ledger. -/
def recordTopStmt (ledger : Ledger) (place : Stmt × Nat) : Ledger :=
  ledger.recordIn (place.1.scope place.2) (Stmt.importNames place.1.topClasses)
    (ClassDecl.totals Declaration.addedGroups place.1.topClasses)
    (ClassDecl.totals Declaration.rewrittenDocs place.1.topClasses)

/-- The migration of a top-level statement. A namespace must be new to the ledger. -/
theorem migrateTopStmt_run (stmt : Stmt) (index : Nat) {ledger : Ledger}
    (closed : ledger.frames = [])
    (fresh : ∀ name, (.nspace index, name) ∉ ledger.required) :
    (migrateTopStmt stmt index).run ledger =
      (stmt.topMigrated, recordTopStmt ledger (stmt, index)) := by
  have outside : ledger.currentScope = .file := by
    simp [Ledger.currentScope, closed, Ledger.scopeOf]
  cases stmt with
  | nspace head body =>
      have enter : (modify (·.enterNamespace index) : StateM Ledger Unit).run ledger =
          ((), ledger.enterNamespace index) := rfl
      have leave := fun names inserted stripped => (modifyGet_run Ledger.leaveNamespace _).trans
        (Ledger.leaveNamespace_enterNamespace fresh names inserted stripped)
      have names : body.flatMap (fun stmt => Stmt.importNames stmt.classes) =
          Stmt.importNames (body.flatMap Stmt.classes) := by
        simp [Stmt.importNames, List.flatMap_assoc, List.map_flatMap]
      rw [migrateTopStmt, run_bind_of_run enter,
        run_bind_of_run (mapM_run_of_no_refs migrateStmt_run _ _),
        Ledger.enterNamespace_currentScope, run_bind_of_run (leave _ _ _), names]
      simp only [recordTopStmt, Stmt.topClasses, ClassDecl.totals_flatMap]
      rfl
  | classLike | enclosing | uses | inclusion | declare | other =>
      simp only [migrateTopStmt, migrateStmt_run, outside]
      rfl

theorem mem_foldl_recordTopStmt (places : List (Stmt × Nat)) (ledger : Ledger)
    (entry : ImportScope × Text) :
    entry ∈ (places.foldl recordTopStmt ledger).required ↔
      entry ∈ ledger.required ∨
        ∃ place ∈ places, entry.1 = place.1.scope place.2 ∧
          entry.2 ∈ Stmt.importNames place.1.topClasses := by
  induction places generalizing ledger with
  | nil => simp
  | cons place places ih =>
      rw [List.foldl_cons, ih, recordTopStmt, Ledger.mem_recordIn_required, or_assoc]
      simp only [List.mem_cons, exists_eq_or_imp]

theorem foldl_recordTopStmt_frames (places : List (Stmt × Nat)) (ledger : Ledger) :
    (places.foldl recordTopStmt ledger).frames = ledger.frames := by
  induction places generalizing ledger with
  | nil => rfl
  | cons place places ih => exact ih _

/-- The counts of added groups add up over the statements. -/
theorem foldl_recordTopStmt_inserted (places : List (Stmt × Nat)) (ledger : Ledger) :
    (places.foldl recordTopStmt ledger).inserted = ledger.inserted +
      ClassDecl.totals Declaration.addedGroups (places.flatMap (·.1.topClasses)) := by
  induction places generalizing ledger with
  | nil => rfl
  | cons place places ih =>
      rw [List.foldl_cons, ih]
      simp [recordTopStmt, ClassDecl.totals, Nat.add_assoc]

/-- The counts of changed doc comments add up over the statements. -/
theorem foldl_recordTopStmt_stripped (places : List (Stmt × Nat)) (ledger : Ledger) :
    (places.foldl recordTopStmt ledger).stripped = ledger.stripped +
      ClassDecl.totals Declaration.rewrittenDocs (places.flatMap (·.1.topClasses)) := by
  induction places generalizing ledger with
  | nil => rfl
  | cons place places ih =>
      rw [List.foldl_cons, ih]
      simp [recordTopStmt, ClassDecl.totals, Nat.add_assoc]

/-- The migration of the top-level statements from an index on. Of the namespaces, only those
before the index may have entries in the ledger. -/
theorem mapM_migrateTopStmt_run (stmts : List Stmt) (index : Nat) (ledger : Ledger)
    (closed : ledger.frames = [])
    (fresh : ∀ later name, index ≤ later → (.nspace later, name) ∉ ledger.required) :
    ((stmts.zipIdx index).mapM fun (stmt, index) => migrateTopStmt stmt index).run ledger =
      (stmts.map Stmt.topMigrated, (stmts.zipIdx index).foldl recordTopStmt ledger) := by
  induction stmts generalizing index ledger with
  | nil => rfl
  | cons stmt stmts ih =>
      have run := migrateTopStmt_run stmt index closed fun name => fresh index name le_rfl
      have freshLater : ∀ later name, index + 1 ≤ later →
          (.nspace later, name) ∉ (recordTopStmt ledger (stmt, index)).required := by
        intro later name after member
        rw [recordTopStmt, Ledger.mem_recordIn_required] at member
        rcases member with old | ⟨here, -⟩
        · exact fresh later name (by omega) old
        · have := Stmt.index_of_scope_eq_nspace here.symm
          omega
      rw [List.zipIdx_cons, List.mapM_cons, run_bind_of_run run,
        run_bind_of_run (ih (index + 1) (recordTopStmt ledger (stmt, index)) closed freshLater)]
      rfl

end Migration

namespace SourceUnit

theorem migrate_eq (unit : SourceUnit) :
    unit.migrate = ({ unit with stmts := unit.stmts.map Stmt.topMigrated },
      unit.stmts.zipIdx.foldl Migration.recordTopStmt .empty) := by
  have run := Migration.mapM_migrateTopStmt_run unit.stmts 0 .empty rfl (by simp [Ledger.empty])
  rw [migrate, run]

theorem flatMap_zipIdx_topClasses (unit : SourceUnit) :
    unit.stmts.zipIdx.flatMap (·.1.topClasses) = unit.classes := by
  rw [classes, ← List.zipIdx_map_fst 0 unit.stmts, List.flatMap_map]
  simp

theorem stripped_migrate (unit : SourceUnit) :
    unit.migrate.2.stripped = ClassDecl.totals Declaration.rewrittenDocs unit.classes := by
  rw [migrate_eq, Migration.foldl_recordTopStmt_stripped, flatMap_zipIdx_topClasses]
  exact Nat.zero_add _

/-- A scope requires what the directives of its classes require. -/
theorem requiredIn_migrate (unit : SourceUnit) (scope : ImportScope) :
    unit.migrate.2.requiredIn scope = Stmt.requiredNames (unit.classesIn scope) := by
  apply Ledger.requiredIn_eq_sortUnique
  intro name
  simp only [migrate_eq, Migration.mem_foldl_recordTopStmt, Stmt.mem_importNames, mem_classesIn]
  constructor
  · rintro (old | ⟨place, member, rfl, decl, declared, asked⟩)
    · cases old
    · exact ⟨decl, ⟨place, member, rfl, declared⟩, asked⟩
  · rintro ⟨decl, ⟨place, member, rfl, declared⟩, asked⟩
    exact .inr ⟨place, member, rfl, decl, declared, asked⟩

/-- Every class is migrated on its own, whatever stands around it, and the ledger ends with
nothing open, the number of groups added over all declarations, the number of doc comments
changed, and in every scope the names that the directives of its classes require. -/
theorem migrate_eq_per_class (unit : SourceUnit) :
    unit.migrate.1 = { unit with stmts := unit.stmts.map Stmt.topMigrated } ∧
      unit.migrate.2.isBalanced ∧
      unit.migrate.2.inserted = ClassDecl.totals Declaration.addedGroups unit.classes ∧
      unit.migrate.2.stripped = ClassDecl.totals Declaration.rewrittenDocs unit.classes ∧
      ∀ scope, unit.migrate.2.requiredIn scope = Stmt.requiredNames (unit.classesIn scope) := by
  refine ⟨by rw [migrate_eq], ?_, ?_, unit.stripped_migrate, unit.requiredIn_migrate⟩
  · simp [migrate_eq, Ledger.isBalanced, Migration.foldl_recordTopStmt_frames, Ledger.empty]
  · rw [migrate_eq, Migration.foldl_recordTopStmt_inserted, flatMap_zipIdx_topClasses]
    exact Nat.zero_add _

/-- Not every directive found in a scope requires its name there: the covered methods of a trait
are dropped when the trait is left. -/
theorem covers_of_trait_not_required :
    ∃ unit : SourceUnit, ∃ decl ∈ unit.classesIn .file, ∃ method ∈ decl.methods,
      ∃ ref ∈ method.found.covers,
        (Directive.covers ref).importName ∉ unit.migrate.2.requiredIn .file := by
  let method : Declaration :=
    ⟨['m'], ⟨40, 53⟩, 40, some ⟨some ⟨16, 39⟩, "/** @covers Foo::bar */".toList⟩, []⟩
  let trait : ClassDecl := ⟨.trait, ⟨['T'], ⟨6, 55⟩, 6, none, []⟩, [method]⟩
  refine ⟨⟨[.classLike trait], 5, []⟩, trait, by simp [classesIn, Stmt.scope, Stmt.topClasses,
    Stmt.classes], method, by simp [trait], ⟨"Foo".toList, "bar".toList⟩, ?_⟩
  decide +kernel

end SourceUnit

end TagLift
