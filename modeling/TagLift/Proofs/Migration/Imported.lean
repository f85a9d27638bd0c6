import TagLift.Proofs.Migration.Scopes

/-!
# Required classes are imported

An inserted attribute has the short name of its class, so the class has to be imported under that
name. The file and the first namespace import all classes they require so. A later namespace does,
but for a class that it imports under other names only: such a class counts as imported there, and
nothing is added for it.
-/

namespace TagLift

/-- The import of an attribute class under its own name. -/
theorem Directive.ofClass_importName (directive : Directive) :
    Import.ofClass directive.importName = ⟨.classLike, directive.importName, none⟩ := by
  cases directive <;> rfl

namespace Stmt

/-- Whether the statements import a class, but only under other names. -/
def renamesClass (stmts : List Stmt) (name : Text) : Bool :=
  importsClass stmts name && !(presentImports stmts).contains ⟨.classLike, name, none⟩

theorem ofClass_of_mem_requiredNames {classes : List ClassDecl} {name : Text}
    (asked : name ∈ requiredNames classes) : Import.ofClass name = ⟨.classLike, name, none⟩ := by
  rw [requiredNames, mem_sortUnique, mem_importNames] at asked
  obtain ⟨-, -, directive, -, rfl⟩ := asked
  exact directive.ofClass_importName

/-- Resolved statements import every required class under its own name. -/
theorem mem_presentImports_getD_resolve? {classes : List ClassDecl} {name : Text}
    (asked : name ∈ requiredNames classes) (afterPreamble : Bool) (stmts : List Stmt) :
    ⟨.classLike, name, none⟩ ∈ presentImports
      ((resolve? (requiredNames classes) afterPreamble stmts).getD stmts) := by
  rcases resolved_getD_resolve? (requiredNames classes) afterPreamble stmts with none | resolved
  · rw [none] at asked
    cases asked
  · rw [← ofClass_of_mem_requiredNames asked]
    exact resolved.imported (List.mem_map_of_mem asked)

/-- A migrated namespace imports every required class under its own name, unless it renames it. -/
theorem mem_presentImports_bodyMigrated_iff {body : List Stmt} {name : Text}
    (asked : name ∈ requiredNames (body.flatMap classes)) :
    ⟨.classLike, name, none⟩ ∈ presentImports (bodyMigrated body) ↔
      renamesClass body name = false := by
  have written := ofClass_mem_insertMissing_iff asked (body.map migrated)
  rw [importsClass, presentImports_map_migrated, ← importsClass,
    ofClass_of_mem_requiredNames asked] at written
  rw [bodyMigrated, written, renamesClass, Bool.and_eq_false_iff, Bool.not_eq_false',
    List.contains_iff_mem]
  exact or_comm

end Stmt

namespace SourceUnit

variable {unit : SourceUnit} {index : Nat} {head : NamespaceHead} {body : List Stmt}

/-- A namespace of the migrated unit: the first one is resolved. -/
theorem getElem?_migrateAndResolve (here : unit.stmts[index]? = some (.nspace head body)) :
    unit.migrateAndResolve.1.stmts[index]? = some (.nspace head
      (if unit.firstNamespace? = some index then
        (Stmt.resolve? (Stmt.requiredNames (body.flatMap Stmt.classes)) false
          (Stmt.bodyMigrated body)).getD (Stmt.bodyMigrated body)
      else Stmt.bodyMigrated body)) := by
  rcases namespace_cases unit.stmts with others | ⟨before, first, inner, after, split, others⟩
  · have plain := others _ (List.mem_of_getElem? here)
    cases plain
  · rw [migrateAndResolve_of_nspace split others, firstNamespace?_of_nspace split others]
    rw [split] at here
    rcases Nat.lt_trichotomy index before.length with early | rfl | late
    · rw [List.getElem?_append_left early] at here
      have plain := others _ (List.mem_of_getElem? here)
      cases plain
    · obtain ⟨rfl, rfl⟩ : first = head ∧ inner = body := by simpa using here
      simp
    · obtain ⟨after', rfl⟩ := Nat.exists_eq_add_of_lt late
      have other : some before.length ≠ some (before.length + after' + 1) := by simp; omega
      rw [Nat.add_assoc, List.getElem?_append_right (by omega), Nat.add_sub_cancel_left,
        List.getElem?_cons_succ] at here
      rw [if_neg other, Nat.add_assoc, List.getElem?_append_right (by simp), List.length_map,
        Nat.add_sub_cancel_left, List.getElem?_cons_succ, List.getElem?_map, here]
      rfl

theorem requiredIn_migrate_getElem? (here : unit.stmts[index]? = some (.nspace head body)) :
    unit.migrate.2.requiredIn (.nspace index) = Stmt.requiredNames (body.flatMap Stmt.classes) := by
  obtain ⟨bound, found⟩ := List.getElem?_eq_some_iff.1 here
  have split : unit.stmts =
      unit.stmts.take index ++ .nspace head body :: unit.stmts.drop (index + 1) := by
    rw [← found, List.getElem_cons_drop, List.take_append_drop]
  have required := requiredIn_migrate_nspace split
  rwa [List.length_take_of_le (Nat.le_of_lt bound)] at required

theorem ledger_migrateAndResolve (unit : SourceUnit) :
    unit.migrateAndResolve.2.2 = unit.migrate.2 := by
  rw [migrateAndResolve_eq]

/-- After a migration the file, if it has no namespace, and every namespace import the classes they
require. All do so under the class's own name, except that a namespace after the first one keeps the
names it has if it imports the class under other names only. -/
theorem required_classes_imported (unit : SourceUnit) :
    let new := unit.migrateAndResolve.1
    let ledger := unit.migrateAndResolve.2.2
    (unit.firstNamespace? = none → ∀ name ∈ ledger.requiredIn .file,
      ⟨.classLike, name, none⟩ ∈ Stmt.presentImports new.stmts) ∧
    ∀ index head body, unit.stmts[index]? = some (.nspace head body) →
      ∃ newBody, new.stmts[index]? = some (.nspace head newBody) ∧
        ∀ name ∈ ledger.requiredIn (.nspace index), Stmt.importsClass newBody name ∧
          (⟨.classLike, name, none⟩ ∈ Stmt.presentImports newBody ↔
            unit.firstNamespace? = some index ∨ Stmt.renamesClass body name = false) := by
  intro new ledger
  have ledgerEq : ledger = unit.migrate.2 := unit.ledger_migrateAndResolve
  constructor
  · intro absent name asked
    have others : ∀ stmt ∈ unit.stmts, stmt.isNamespace = false :=
      List.findIdx?_eq_none_iff.1 absent
    rw [ledgerEq, requiredIn_migrate_file] at asked
    rw [show new = _ from migrateAndResolve_of_no_nspace others]
    exact Stmt.mem_presentImports_getD_resolve? asked true _
  · intro index head body here
    refine ⟨_, getElem?_migrateAndResolve here, ?_⟩
    intro name asked
    rw [ledgerEq, requiredIn_migrate_getElem? here] at asked
    split
    next first =>
      have imported := Stmt.mem_presentImports_getD_resolve? asked false (Stmt.bodyMigrated body)
      exact ⟨Stmt.importsClass_of_mem imported rfl, iff_of_true imported (.inl first)⟩
    next later =>
      constructor
      · have all := Stmt.importsAll_insertMissing (Stmt.requiredNames (body.flatMap Stmt.classes))
          (body.map Stmt.migrated) name asked
        rwa [Stmt.ofClass_of_mem_requiredNames asked] at all
      · rw [Stmt.mem_presentImports_bodyMigrated_iff asked]
        simp only [later, false_or]

/-- A second namespace that imports the attribute class under another name only gets an attribute
whose name it does not import. -/
theorem renamed_class_not_imported :
    ∃ (unit : SourceUnit) (head : NamespaceHead) (body : List Stmt) (name : Text),
      unit.migrateAndResolve.1.stmts[1]? = some (.nspace head body) ∧
      name ∈ unit.migrateAndResolve.2.2.requiredIn (.nspace 1) ∧
      ⟨.classLike, name, none⟩ ∉ Stmt.presentImports body := by
  let name := (Directive.group ['g']).importName
  let decl : Declaration :=
    ⟨['C'], ⟨93, 103⟩, 93, some ⟨some ⟨77, 92⟩, "/** @group g */".toList⟩, []⟩
  let unit : SourceUnit :=
    ⟨[.nspace ⟨⟨6, 18⟩, 18, false⟩ [],
      .nspace ⟨⟨19, 31⟩, 31, false⟩
        [.uses (some ⟨32, 76⟩) [⟨.classLike, name, some ['G']⟩], .classLike ⟨.cls, decl, []⟩]],
      5, []⟩
  have here : unit.stmts[1]? = some (.nspace ⟨⟨19, 31⟩, 31, false⟩ _) := rfl
  refine ⟨unit, _, _, name, getElem?_migrateAndResolve here, ?_, ?_⟩
  · decide +kernel
  · decide +kernel

end SourceUnit

end TagLift
