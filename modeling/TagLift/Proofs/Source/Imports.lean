import TagLift.Proofs.Sorted
import TagLift.Source.Imports

/-!
# Resolved imports

Resolving leaves all statements but the imports in their order, and what it writes is a fixed
point: one import to a statement, increasing, with every required class among them. Inserting the
missing imports of a namespace leaves none missing.
-/

namespace TagLift

namespace Stmt

@[simp] theorem presentImports_append (first second : List Stmt) :
    presentImports (first ++ second) = presentImports first ++ presentImports second := by
  simp [presentImports]

@[simp] theorem presentImports_map_ofImport (decls : List Import) :
    presentImports (decls.map ofImport) = decls := by
  induction decls with
  | nil => rfl
  | cons decl decls ih => simpa [presentImports, ofImport, imports] using ih

theorem imports_eq_nil_of_not_isUse {stmt : Stmt} (other : stmt.isUse = false) :
    stmt.imports = [] := by
  cases stmt <;> simp_all [isUse, imports]

theorem presentImports_eq_nil {stmts : List Stmt} (others : ∀ stmt ∈ stmts, stmt.isUse = false) :
    presentImports stmts = [] :=
  List.flatMap_eq_nil_iff.2 fun stmt member => imports_eq_nil_of_not_isUse (others stmt member)

/-! ## Missing imports -/

/-- Every required class is imported, under any name. -/
def ImportsAll (required : List Text) (stmts : List Stmt) : Prop :=
  ∀ name ∈ required, importsClass stmts (Import.ofClass name).name

theorem importsClass_of_mem {stmts : List Stmt} {decl : Import}
    (member : decl ∈ presentImports stmts) (kind : decl.kind = .classLike) :
    importsClass stmts decl.name := by
  rw [importsClass, List.any_eq_true]
  exact ⟨decl, member, by simp [kind]⟩

theorem missingImports_eq_nil {required : List Text} {stmts : List Stmt}
    (all : ImportsAll required stmts) : missingImports required stmts = [] := by
  rw [missingImports, List.map_eq_nil_iff, List.filter_eq_nil_iff]
  intro decl member
  obtain ⟨name, asked, rfl⟩ := List.mem_map.1 member
  simp [all name asked]

/-- After the missing imports are inserted none is missing. -/
theorem importsAll_insertMissing (required : List Text) (stmts : List Stmt) :
    ImportsAll required (insertMissing required stmts) := by
  intro name asked
  by_cases present : importsClass stmts (Import.ofClass name).name
  · rw [importsClass, List.any_eq_true] at present ⊢
    obtain ⟨decl, member, matching⟩ := present
    exact ⟨decl, by simp [insertMissing, member], matching⟩
  · refine importsClass_of_mem ?_ rfl
    have missing : Import.ofClass name ∈
        (required.map Import.ofClass).filter (!importsClass stmts ·.name) :=
      List.mem_filter.2 ⟨List.mem_map_of_mem asked, by simp [present]⟩
    simp only [insertMissing, missingImports, presentImports_append, presentImports_map_ofImport,
      List.mem_append]
    exact .inl missing

/-- After the missing imports are inserted, a required class is imported under its own name unless
the statements import it already, and only under other names. -/
theorem ofClass_mem_insertMissing_iff {required : List Text} {name : Text}
    (asked : name ∈ required) (stmts : List Stmt) :
    Import.ofClass name ∈ presentImports (insertMissing required stmts) ↔
      Import.ofClass name ∈ presentImports stmts ∨
        importsClass stmts (Import.ofClass name).name = false := by
  have written : Import.ofClass name ∈ required.map Import.ofClass := List.mem_map_of_mem asked
  simp only [insertMissing, missingImports, presentImports_append, presentImports_map_ofImport,
    List.mem_append, List.mem_filter, written, true_and, Bool.not_eq_true']
  exact or_comm

theorem filter_not_isUse_insertMissing (required : List Text) (stmts : List Stmt) :
    (insertMissing required stmts).filter (!·.isUse) = stmts.filter (!·.isUse) := by
  simp [insertMissing, missingImports, ofImport, isUse, Function.comp_def, List.filter_map]

/-! ## Resolving -/

/-- The statements have the imports that resolving would give them. -/
structure Resolved (required : List Text) (stmts : List Stmt) : Prop where
  single : hasSingleImports stmts
  increasing : Increasing Import.order (presentImports stmts)
  imported : required.map Import.ofClass ⊆ presentImports stmts

theorem Resolved.of_presentImports_eq {required : List Text} {stmts written : List Stmt}
    (single : hasSingleImports written)
    (present : presentImports written = resolvedImports required stmts) :
    Resolved required written := by
  refine ⟨single, ?_, ?_⟩
  · rw [present]
    exact increasing_sortUnique _
  · rw [present]
    intro decl member
    simp [resolvedImports, member]

theorem Resolved.importsAll {required : List Text} {stmts : List Stmt}
    (resolved : Resolved required stmts) : ImportsAll required stmts :=
  fun _ asked => importsClass_of_mem (resolved.imported (List.mem_map_of_mem asked)) rfl

theorem Resolved.mono {required fewer : List Text} {stmts : List Stmt} (subset : fewer ⊆ required)
    (resolved : Resolved required stmts) : Resolved fewer stmts :=
  ⟨resolved.single, resolved.increasing,
    List.Subset.trans (List.map_subset Import.ofClass subset) resolved.imported⟩

/-- Resolved statements stay as they are. -/
theorem Resolved.resolve?_eq_none {required : List Text} {stmts : List Stmt}
    (resolved : Resolved required stmts) (afterPreamble : Bool) :
    resolve? required afterPreamble stmts = none := by
  have same : resolvedImports required stmts = presentImports stmts :=
    resolved.increasing.sortUnique_append resolved.imported
  simp [resolve?, same, resolved.single]

/-- What is written anew: the resolved imports, between the first and the last of the other
statements. -/
theorem exists_of_resolve?_eq_some {required : List Text} {afterPreamble : Bool}
    {stmts written : List Stmt} (some : resolve? required afterPreamble stmts = some written) :
    ∃ front back, stmts.filter (!·.isUse) = front ++ back ∧
      front = (if afterPreamble then (stmts.filter (!·.isUse)).takeWhile isPreamble else []) ∧
      written = front ++ (resolvedImports required stmts).map ofImport ++ back := by
  simp only [resolve?] at some
  split at some
  · cases some
  · refine ⟨_, _, ?_, rfl, (Option.some.inj some).symm⟩
    split
    · exact (List.prefix_iff_eq_append.1 (List.takeWhile_prefix isPreamble)).symm
    · simp

theorem isUse_eq_false_of_filter_eq {stmts front back : List Stmt}
    (others : stmts.filter (!·.isUse) = front ++ back) :
    ∀ stmt ∈ front ++ back, stmt.isUse = false := by
  intro stmt member
  rw [← others] at member
  simpa using (List.mem_filter.1 member).2

/-- What is written anew holds the resolved imports, one to a statement. -/
theorem imports_of_resolve?_eq_some {required : List Text} {afterPreamble : Bool}
    {stmts written : List Stmt} (some : resolve? required afterPreamble stmts = some written) :
    hasSingleImports written ∧ presentImports written = resolvedImports required stmts := by
  obtain ⟨front, back, others, -, rfl⟩ := exists_of_resolve?_eq_some some
  have noUse := isUse_eq_false_of_filter_eq others
  constructor
  · rw [hasSingleImports, List.all_eq_true]
    intro stmt member
    simp only [List.mem_append, List.mem_map] at member
    rcases member with (inFront | ⟨decl, -, rfl⟩) | inBack
    · simp [noUse stmt (by simp [inFront])]
    · simp [ofImport, imports]
    · simp [noUse stmt (by simp [inBack])]
  · rw [presentImports_append, presentImports_append, presentImports_map_ofImport,
      presentImports_eq_nil fun stmt member => noUse stmt (by simp [member]),
      presentImports_eq_nil fun stmt member => noUse stmt (by simp [member])]
    simp

/-- What stays as it is, although some name is required, holds the resolved imports already. -/
theorem imports_of_resolve?_eq_none {required : List Text} {afterPreamble : Bool}
    {stmts : List Stmt} (nonempty : required ≠ [])
    (none : resolve? required afterPreamble stmts = none) :
    hasSingleImports stmts ∧ presentImports stmts = resolvedImports required stmts := by
  simp only [resolve?] at none
  split at none
  next done => simpa [nonempty] using done
  · cases none

/-- Written anew or not, the statements hold the resolved imports afterwards, one to a statement, if
any name is required. -/
theorem imports_getD_resolve? {required : List Text} (nonempty : required ≠ [])
    (afterPreamble : Bool) (stmts : List Stmt) :
    hasSingleImports ((resolve? required afterPreamble stmts).getD stmts) ∧
      presentImports ((resolve? required afterPreamble stmts).getD stmts) =
        resolvedImports required stmts := by
  cases written : resolve? required afterPreamble stmts with
  | none => exact imports_of_resolve?_eq_none nonempty written
  | some written' => exact imports_of_resolve?_eq_some written

theorem resolved_getD_resolve? (required : List Text) (afterPreamble : Bool) (stmts : List Stmt) :
    required = [] ∨ Resolved required ((resolve? required afterPreamble stmts).getD stmts) := by
  by_cases empty : required = []
  · exact .inl empty
  · obtain ⟨single, present⟩ := imports_getD_resolve? empty afterPreamble stmts
    exact .inr (.of_presentImports_eq single present)

theorem filter_not_isUse_of_resolve?_eq_some {required : List Text} {afterPreamble : Bool}
    {stmts written : List Stmt} (some : resolve? required afterPreamble stmts = some written) :
    written.filter (!·.isUse) = stmts.filter (!·.isUse) := by
  obtain ⟨front, back, others, -, rfl⟩ := exists_of_resolve?_eq_some some
  have noUse : (front ++ back).filter (!·.isUse) = front ++ back := by
    rw [← others, List.filter_filter]
    simp
  rw [List.filter_append] at noUse
  rw [others, ← noUse]
  simp [ofImport, isUse, List.filter_map, Function.comp_def]

theorem filter_not_isUse_getD_resolve? (required : List Text) (afterPreamble : Bool)
    (stmts : List Stmt) :
    ((resolve? required afterPreamble stmts).getD stmts).filter (!·.isUse) =
      stmts.filter (!·.isUse) := by
  cases written : resolve? required afterPreamble stmts with
  | none => rfl
  | some written' => exact filter_not_isUse_of_resolve?_eq_some written

@[simp] theorem resolve?_nil (afterPreamble : Bool) (stmts : List Stmt) :
    resolve? [] afterPreamble stmts = none := by
  simp [resolve?]

end Stmt

namespace SourceUnit

/-- Statements have no namespace, or a first one. -/
theorem namespace_cases (stmts : List Stmt) :
    (∀ stmt ∈ stmts, stmt.isNamespace = false) ∨
      ∃ before head body after, stmts = before ++ .nspace head body :: after ∧
        ∀ stmt ∈ before, stmt.isNamespace = false := by
  induction stmts with
  | nil => exact .inl (by simp)
  | cons stmt stmts ih =>
      rcases stmt.nspace_or_plain with ⟨head, body, rfl⟩ | plain
      · exact .inr ⟨[], head, body, stmts, rfl, by simp⟩
      · rcases ih with others | ⟨before, head, body, after, rfl, others⟩
        · exact .inl (by simpa [plain] using others)
        · exact .inr ⟨stmt :: before, head, body, after, rfl, by simpa [plain] using others⟩

theorem firstNamespace?_of_no_nspace {unit : SourceUnit}
    (others : ∀ stmt ∈ unit.stmts, stmt.isNamespace = false) : unit.firstNamespace? = none :=
  List.findIdx?_eq_none_iff.2 others

theorem firstNamespace?_of_nspace {unit : SourceUnit} {head : NamespaceHead}
    {before body after : List Stmt} (split : unit.stmts = before ++ .nspace head body :: after)
    (others : ∀ stmt ∈ before, stmt.isNamespace = false) :
    unit.firstNamespace? = some before.length := by
  have absent : before.findIdx? Stmt.isNamespace = none := List.findIdx?_eq_none_iff.2 others
  simp [firstNamespace?, split, List.findIdx?_append, absent, List.findIdx?_cons,
    Stmt.isNamespace]

theorem importScope_of_no_nspace {unit : SourceUnit}
    (others : ∀ stmt ∈ unit.stmts, stmt.isNamespace = false) : unit.importScope = .file := by
  rw [importScope, firstNamespace?_of_no_nspace others]

theorem importScope_of_nspace {unit : SourceUnit} {head : NamespaceHead}
    {before body after : List Stmt} (split : unit.stmts = before ++ .nspace head body :: after)
    (others : ∀ stmt ∈ before, stmt.isNamespace = false) :
    unit.importScope = .nspace before.length := by
  rw [importScope, firstNamespace?_of_nspace split others]

theorem resolveFirstNamespace?_append {required : List Text} {before : List Stmt}
    (others : ∀ stmt ∈ before, stmt.isNamespace = false) (head : NamespaceHead)
    (body after : List Stmt) :
    resolveFirstNamespace? required (before ++ .nspace head body :: after) =
      (Stmt.resolve? required false body).map fun body =>
        before ++ .nspace head body :: after := by
  induction before with
  | nil => rfl
  | cons stmt before ih =>
      have rest := ih fun stmt member => others stmt (by simp [member])
      cases stmt with
      | nspace => exact absurd (others _ List.mem_cons_self) (by simp [Stmt.isNamespace])
      | classLike | enclosing | uses | inclusion | declare | other =>
          simp [resolveFirstNamespace?, rest, Function.comp_def]

/-- A unit without a namespace has the imports of the file resolved. -/
theorem resolveImports?_of_no_nspace {unit : SourceUnit}
    (others : ∀ stmt ∈ unit.stmts, stmt.isNamespace = false) (ledger : Ledger) :
    unit.resolveImports? ledger =
      (Stmt.resolve? (ledger.requiredIn .file) true unit.stmts).map fun stmts =>
        { unit with stmts } := by
  simp [resolveImports?, importScope_of_no_nspace others]

/-- A unit with a namespace has the imports of the first one resolved. -/
theorem resolveImports?_of_nspace {unit : SourceUnit} {head : NamespaceHead}
    {before body after : List Stmt} (split : unit.stmts = before ++ .nspace head body :: after)
    (others : ∀ stmt ∈ before, stmt.isNamespace = false) (ledger : Ledger) :
    unit.resolveImports? ledger =
      (Stmt.resolve? (ledger.requiredIn (.nspace before.length)) false body).map fun body =>
        { unit with stmts := before ++ .nspace head body :: after } := by
  simp [resolveImports?, importScope_of_nspace split others, split,
    resolveFirstNamespace?_append others, Function.comp_def]

/-- Nothing is resolved where nothing is required. -/
theorem resolveImports?_of_not_requiresAny {ledger : Ledger} (none : ledger.requiresAny = false)
    (unit : SourceUnit) : unit.resolveImports? ledger = Option.none := by
  have empty : ledger.required = [] := by simpa [Ledger.requiresAny] using none
  have nothing : ∀ scope, ledger.requiredIn scope = [] := by
    intro scope
    simp [Ledger.requiredIn, empty, sortUnique]
  rcases namespace_cases unit.stmts with others | ⟨before, head, body, after, split, others⟩
  · rw [resolveImports?_of_no_nspace others, nothing, Stmt.resolve?_nil, Option.map_none]
  · rw [resolveImports?_of_nspace split others, nothing, Stmt.resolve?_nil, Option.map_none]

end SourceUnit

end TagLift
