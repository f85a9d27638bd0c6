import TagLift.Migration.Pipeline
import TagLift.Proofs.Migration.Visit
import TagLift.Proofs.Source.Imports

/-!
# The migrated unit scope by scope

A unit without namespaces has one list of statements and one set of required names. In a unit with
namespaces every body gets the imports it misses, and the first body is then resolved. In both
cases the whole migration is an equation for the statements.
-/

namespace TagLift

namespace Stmt

theorem isNamespace_migrated (stmt : Stmt) : stmt.migrated.isNamespace = stmt.isNamespace := by
  cases stmt <;> rfl

theorem isUse_migrated (stmt : Stmt) : stmt.migrated.isUse = stmt.isUse := by
  cases stmt <;> rfl

theorem imports_migrated (stmt : Stmt) : stmt.migrated.imports = stmt.imports := by
  cases stmt <;> rfl

theorem presentImports_map_migrated (stmts : List Stmt) :
    presentImports (stmts.map migrated) = presentImports stmts := by
  simp [presentImports, List.flatMap_map, imports_migrated]

theorem classes_eq_nil_of_isUse {stmt : Stmt} (use : stmt.isUse) : stmt.classes = [] := by
  cases stmt <;> simp_all [isUse, classes]

theorem classes_migrated (stmt : Stmt) :
    stmt.migrated.classes = stmt.classes.map ClassDecl.migrated := by
  cases stmt <;> rfl

theorem flatMap_filter_not_isUse {α : Type} {items : Stmt → List α}
    (nothing : ∀ stmt : Stmt, stmt.isUse → items stmt = []) (stmts : List Stmt) :
    (stmts.filter (!·.isUse)).flatMap items = stmts.flatMap items := by
  induction stmts with
  | nil => rfl
  | cons stmt stmts ih =>
      cases use : stmt.isUse with
      | true => simp [use, ih, nothing stmt use]
      | false => simp [use, ih]

theorem flatMap_classes_filter_not_isUse (stmts : List Stmt) :
    (stmts.filter (!·.isUse)).flatMap classes = stmts.flatMap classes :=
  flatMap_filter_not_isUse (fun _ => classes_eq_nil_of_isUse) stmts

theorem isNamespace_map_migrated {stmts : List Stmt}
    (others : ∀ stmt ∈ stmts, stmt.isNamespace = false) :
    ∀ stmt ∈ stmts.map migrated, stmt.isNamespace = false := by
  intro stmt member
  obtain ⟨original, inside, rfl⟩ := List.mem_map.1 member
  rw [isNamespace_migrated]
  exact others original inside

theorem topMigrated_of_not_isNamespace {stmt : Stmt} (other : stmt.isNamespace = false) :
    stmt.topMigrated = stmt.migrated := by
  cases stmt <;> simp_all [isNamespace, topMigrated]

theorem map_topMigrated {stmts : List Stmt} (others : ∀ stmt ∈ stmts, stmt.isNamespace = false) :
    stmts.map topMigrated = stmts.map migrated :=
  List.map_congr_left fun stmt member => topMigrated_of_not_isNamespace (others stmt member)

/-- Statements that are the migrated ones but for imports. -/
def MigratedFrom (old stmts : List Stmt) : Prop :=
  stmts.filter (!·.isUse) = (old.map migrated).filter (!·.isUse)

theorem MigratedFrom.isUse_or_migrated {old stmts : List Stmt} (derived : MigratedFrom old stmts)
    {stmt : Stmt} (member : stmt ∈ stmts) :
    stmt.isUse ∨ ∃ original ∈ old, stmt = original.migrated := by
  cases use : stmt.isUse with
  | true => exact .inl rfl
  | false =>
      have kept : stmt ∈ stmts.filter (!·.isUse) := List.mem_filter.2 ⟨member, by simp [use]⟩
      rw [derived] at kept
      obtain ⟨original, inside, rfl⟩ := List.mem_map.1 (List.mem_filter.1 kept).1
      exact .inr ⟨original, inside, rfl⟩

theorem MigratedFrom.exists_eq_migrated {old stmts : List Stmt} (derived : MigratedFrom old stmts)
    {stmt : Stmt} (member : stmt ∈ stmts) (notUse : stmt.isUse = false) :
    ∃ original ∈ old, stmt = original.migrated := by
  rcases derived.isUse_or_migrated member with use | found
  · rw [notUse] at use
    cases use
  · exact found

/-- Resolving imports changes imports only. -/
theorem MigratedFrom.getD_resolve? {old stmts : List Stmt} (derived : MigratedFrom old stmts)
    (required : List Text) (afterPreamble : Bool) :
    MigratedFrom old ((resolve? required afterPreamble stmts).getD stmts) :=
  (filter_not_isUse_getD_resolve? required afterPreamble stmts).trans derived

theorem migratedFrom_map_migrated (stmts : List Stmt) : MigratedFrom stmts (stmts.map migrated) :=
  rfl

theorem migratedFrom_bodyMigrated (body : List Stmt) : MigratedFrom body (bodyMigrated body) :=
  filter_not_isUse_insertMissing _ _

theorem MigratedFrom.flatMap_classes {old stmts : List Stmt} (derived : MigratedFrom old stmts) :
    stmts.flatMap classes = (old.flatMap classes).map ClassDecl.migrated := by
  rw [← flatMap_classes_filter_not_isUse, derived, flatMap_classes_filter_not_isUse]
  simp [List.flatMap_map, List.map_flatMap, classes_migrated]

end Stmt

namespace SourceUnit

variable {unit : SourceUnit} {head : NamespaceHead} {before body after : List Stmt}

theorem requiredIn_migrate_file (unit : SourceUnit) :
    unit.migrate.2.requiredIn .file = Stmt.requiredNames (unit.stmts.flatMap Stmt.classes) := by
  rw [requiredIn_migrate]
  exact Stmt.requiredNames_eq_of_mem_iff fun _ => mem_classesIn_file

theorem requiredIn_migrate_nspace (split : unit.stmts = before ++ .nspace head body :: after) :
    unit.migrate.2.requiredIn (.nspace before.length) =
      Stmt.requiredNames (body.flatMap Stmt.classes) := by
  rw [requiredIn_migrate]
  exact Stmt.requiredNames_eq_of_mem_iff fun _ => mem_classesIn_nspace split

theorem migrate_of_no_nspace (others : ∀ stmt ∈ unit.stmts, stmt.isNamespace = false) :
    unit.migrate.1 = { unit with stmts := unit.stmts.map Stmt.migrated } := by
  rw [migrate_eq, Stmt.map_topMigrated others]

theorem migrate_of_nspace (split : unit.stmts = before ++ .nspace head body :: after)
    (others : ∀ stmt ∈ before, stmt.isNamespace = false) :
    unit.migrate.1 = { unit with
      stmts := before.map Stmt.migrated ++ .nspace head (Stmt.bodyMigrated body) ::
        after.map Stmt.topMigrated } := by
  simp [migrate_eq, split, Stmt.map_topMigrated others, Stmt.topMigrated]

/-- The imports that a migration without namespaces resolves. -/
theorem resolveImports?_migrate_of_no_nspace
    (others : ∀ stmt ∈ unit.stmts, stmt.isNamespace = false) :
    unit.migrate.1.resolveImports? unit.migrate.2 =
      (Stmt.resolve? (Stmt.requiredNames (unit.stmts.flatMap Stmt.classes)) true
        (unit.stmts.map Stmt.migrated)).map fun stmts => { unit with stmts } := by
  have migrated := migrate_of_no_nspace others
  have stillOthers : ∀ stmt ∈ unit.migrate.1.stmts, stmt.isNamespace = false := by
    rw [migrated]
    exact Stmt.isNamespace_map_migrated others
  rw [resolveImports?_of_no_nspace stillOthers, requiredIn_migrate_file, migrated]

/-- The imports that a migration with namespaces resolves. -/
theorem resolveImports?_migrate_of_nspace
    (split : unit.stmts = before ++ .nspace head body :: after)
    (others : ∀ stmt ∈ before, stmt.isNamespace = false) :
    unit.migrate.1.resolveImports? unit.migrate.2 =
      (Stmt.resolve? (Stmt.requiredNames (body.flatMap Stmt.classes)) false
        (Stmt.bodyMigrated body)).map fun body =>
          { unit with
            stmts := before.map Stmt.migrated ++ .nspace head body ::
              after.map Stmt.topMigrated } := by
  have migrated := migrate_of_nspace split others
  rw [resolveImports?_of_nspace (congrArg SourceUnit.stmts migrated)
    (Stmt.isNamespace_map_migrated others), List.length_map, requiredIn_migrate_nspace split,
    migrated]

/-- Resolving is asked for only where a name is required, but that makes no difference. -/
theorem migrateAndResolve_eq (unit : SourceUnit) :
    unit.migrateAndResolve =
      ((unit.migrate.1.resolveImports? unit.migrate.2).getD unit.migrate.1,
        (unit.migrate.1.resolveImports? unit.migrate.2).isSome, unit.migrate.2) := by
  cases any : unit.migrate.2.requiresAny with
  | false => simp [migrateAndResolve, any, resolveImports?_of_not_requiresAny any]
  | true =>
      simp only [migrateAndResolve, any, if_true]
      split
      next resolved => simp [resolved]
      next resolved => simp [resolved]

/-- A migrated file without namespaces. -/
theorem migrateAndResolve_of_no_nspace
    (others : ∀ stmt ∈ unit.stmts, stmt.isNamespace = false) :
    unit.migrateAndResolve.1 = { unit with
      stmts := (Stmt.resolve? (Stmt.requiredNames (unit.stmts.flatMap Stmt.classes)) true
        (unit.stmts.map Stmt.migrated)).getD (unit.stmts.map Stmt.migrated) } := by
  rw [migrateAndResolve_eq, resolveImports?_migrate_of_no_nspace others,
    migrate_of_no_nspace others]
  cases Stmt.resolve? _ true (unit.stmts.map Stmt.migrated) <;> rfl

/-- A migrated file with namespaces, the first one set apart. -/
theorem migrateAndResolve_of_nspace (split : unit.stmts = before ++ .nspace head body :: after)
    (others : ∀ stmt ∈ before, stmt.isNamespace = false) :
    unit.migrateAndResolve.1 = { unit with
      stmts := before.map Stmt.migrated ++
        .nspace head ((Stmt.resolve? (Stmt.requiredNames (body.flatMap Stmt.classes)) false
          (Stmt.bodyMigrated body)).getD (Stmt.bodyMigrated body)) ::
        after.map Stmt.topMigrated } := by
  rw [migrateAndResolve_eq, resolveImports?_migrate_of_nspace split others,
    migrate_of_nspace split others]
  cases Stmt.resolve? _ false (Stmt.bodyMigrated body) <;> rfl

end SourceUnit

end TagLift
