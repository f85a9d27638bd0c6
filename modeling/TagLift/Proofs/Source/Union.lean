import TagLift.Proofs.Source.Imports

/-!
# Resolving as a sorted union

The imports of a unit are resolved in one list of statements: the body of its first namespace, or
else the whole file. Afterwards that list has the imports it had and the required ones, increasing
and one to a statement, and its other statements are as they were. Nothing outside of it changes,
and there is nothing left to resolve.
-/

namespace TagLift

namespace Stmt

/-- The body of a namespace. -/
def body : Stmt → List Stmt
  | .nspace _ body => body
  | _ => []

/-- A namespace with another body. -/
def withBody (body : List Stmt) : Stmt → Stmt
  | .nspace head _ => .nspace head body
  | stmt => stmt

/-- The new statements have the imports of the old ones and the required classes, increasing and
one to a statement, and the other statements as they were. -/
structure SortedUnion (required : List Text) (old new : List Stmt) : Prop where
  increasing : Increasing Import.order (presentImports new)
  members : ∀ decl, decl ∈ presentImports new ↔
    decl ∈ presentImports old ∨ ∃ name ∈ required, decl = Import.ofClass name
  single : hasSingleImports new
  others : new.filter (!·.isUse) = old.filter (!·.isUse)

/-- The imports stand together, in front of all other statements or right after the leading
inclusions and `declare` statements. -/
def Gathered (afterPreamble : Bool) (stmts : List Stmt) : Prop :=
  ∃ (front : List Stmt) (decls : List Import) (back : List Stmt),
    stmts = front ++ decls.map ofImport ++ back ∧
    (∀ stmt ∈ front ++ back, stmt.isUse = false) ∧
    if afterPreamble then
      (∀ stmt ∈ front, stmt.isPreamble) ∧ ∀ stmt ∈ back.head?, stmt.isPreamble = false
    else front = []

section Resolve

variable {required : List Text} {afterPreamble : Bool} {stmts written : List Stmt}

/-- What was written anew gathers its imports. -/
theorem gathered_of_resolve?_eq_some
    (some : resolve? required afterPreamble stmts = some written) :
    Gathered afterPreamble written := by
  obtain ⟨front, back, others, leading, rfl⟩ := exists_of_resolve?_eq_some some
  refine ⟨front, resolvedImports required stmts, back, rfl, isUse_eq_false_of_filter_eq others, ?_⟩
  cases afterPreamble with
  | false => exact leading
  | true =>
      rw [if_pos rfl] at leading ⊢
      have whole : front ++ back = front ++ (stmts.filter (!·.isUse)).dropWhile isPreamble := by
        rw [← others, leading, List.takeWhile_append_dropWhile]
      obtain rfl := List.append_cancel_left whole
      constructor
      · intro stmt member
        rw [leading] at member
        exact List.all_eq_true.1 List.all_takeWhile stmt member
      · intro stmt first
        have stops := List.head?_dropWhile_not isPreamble (stmts.filter (!·.isUse))
        rw [Option.mem_def.1 first] at stops
        exact stops

/-- If any name is required, resolving gives the sorted union, whether it writes anything or not. -/
theorem sortedUnion_getD_resolve? (required : List Text) (afterPreamble : Bool)
    (stmts : List Stmt) :
    required = [] ∨
      SortedUnion required stmts ((resolve? required afterPreamble stmts).getD stmts) := by
  refine or_iff_not_imp_left.2 fun nonempty => ?_
  obtain ⟨single, present⟩ := imports_getD_resolve? nonempty afterPreamble stmts
  refine ⟨?_, ?_, single, filter_not_isUse_getD_resolve? required afterPreamble stmts⟩
  · rw [present]
    exact increasing_sortUnique _
  · intro decl
    simp only [present, resolvedImports, mem_sortUnique, List.mem_append, List.mem_map, eq_comm]

/-- After resolving there is nothing left to resolve. -/
theorem resolve?_getD_resolve? (required : List Text) (afterPreamble : Bool) (stmts : List Stmt) :
    resolve? required afterPreamble
      ((resolve? required afterPreamble stmts).getD stmts) = none := by
  rcases resolved_getD_resolve? required afterPreamble stmts with rfl | resolved
  · exact resolve?_nil afterPreamble _
  · exact resolved.resolve?_eq_none afterPreamble

end Resolve

end Stmt

namespace SourceUnit

/-- The statements of the scope whose imports are resolved: the body of the first namespace, or else
those of the file. -/
def scopeStmts (unit : SourceUnit) : List Stmt :=
  match unit.firstNamespace? with
  | some index => unit.stmts[index]?.elim [] Stmt.body
  | none => unit.stmts

/-- The unit with other statements in that scope. -/
def withScopeStmts (unit : SourceUnit) (stmts : List Stmt) : SourceUnit :=
  match unit.firstNamespace? with
  | some index => { unit with stmts := unit.stmts.modify index (Stmt.withBody stmts) }
  | none => { unit with stmts }

section Scope

variable {unit : SourceUnit} {head : NamespaceHead} {before body after : List Stmt}

theorem scopeStmts_of_no_nspace (others : ∀ stmt ∈ unit.stmts, stmt.isNamespace = false) :
    unit.scopeStmts = unit.stmts := by
  rw [scopeStmts, firstNamespace?_of_no_nspace others]

theorem withScopeStmts_of_no_nspace (others : ∀ stmt ∈ unit.stmts, stmt.isNamespace = false)
    (stmts : List Stmt) : unit.withScopeStmts stmts = { unit with stmts } := by
  rw [withScopeStmts, firstNamespace?_of_no_nspace others]

theorem scopeStmts_of_nspace (split : unit.stmts = before ++ .nspace head body :: after)
    (others : ∀ stmt ∈ before, stmt.isNamespace = false) : unit.scopeStmts = body := by
  simp [scopeStmts, firstNamespace?_of_nspace split others, split, Stmt.body]

theorem withScopeStmts_of_nspace (split : unit.stmts = before ++ .nspace head body :: after)
    (others : ∀ stmt ∈ before, stmt.isNamespace = false) (stmts : List Stmt) :
    unit.withScopeStmts stmts = { unit with stmts := before ++ .nspace head stmts :: after } := by
  simp [withScopeStmts, firstNamespace?_of_nspace split others, split, List.modify_eq_take_drop,
    Stmt.withBody]

end Scope

/-- Resolving the imports of a unit is resolving those of its scope. -/
theorem resolveImports?_eq_map (unit : SourceUnit) (ledger : Ledger) :
    unit.resolveImports? ledger =
      (Stmt.resolve? (ledger.requiredIn unit.importScope) unit.firstNamespace?.isNone
        unit.scopeStmts).map unit.withScopeStmts := by
  rcases namespace_cases unit.stmts with others | ⟨before, head, body, after, split, others⟩
  · rw [resolveImports?_of_no_nspace others, importScope_of_no_nspace others,
      firstNamespace?_of_no_nspace others, scopeStmts_of_no_nspace others,
      funext (withScopeStmts_of_no_nspace others)]
    rfl
  · rw [resolveImports?_of_nspace split others, importScope_of_nspace split others,
      firstNamespace?_of_nspace split others, scopeStmts_of_nspace split others,
      funext (withScopeStmts_of_nspace split others)]
    rfl

section Rewritten

variable {unit : SourceUnit} {stmts : List Stmt}
  (kept : stmts.filter (!·.isUse) = unit.scopeStmts.filter (!·.isUse))

include kept

/-- Where only imports change, the scope stays the scope. -/
theorem scope_withScopeStmts :
    (unit.withScopeStmts stmts).firstNamespace? = unit.firstNamespace? ∧
      (unit.withScopeStmts stmts).scopeStmts = stmts := by
  rcases namespace_cases unit.stmts with others | ⟨before, head, body, after, split, others⟩
  · have stillOthers : ∀ stmt ∈ stmts, stmt.isNamespace = false := by
      intro stmt member
      cases use : stmt.isUse with
      | true => cases stmt <;> simp_all [Stmt.isUse, Stmt.isNamespace]
      | false =>
          have inScope : stmt ∈ stmts.filter (!·.isUse) := List.mem_filter.2 ⟨member, by simp [use]⟩
          rw [kept, scopeStmts_of_no_nspace others] at inScope
          exact others stmt (List.mem_filter.1 inScope).1
    rw [withScopeStmts_of_no_nspace others, firstNamespace?_of_no_nspace others]
    exact ⟨firstNamespace?_of_no_nspace stillOthers, scopeStmts_of_no_nspace stillOthers⟩
  · rw [withScopeStmts_of_nspace split others, firstNamespace?_of_nspace split others]
    exact ⟨firstNamespace?_of_nspace rfl others, scopeStmts_of_nspace rfl others⟩

theorem importScope_withScopeStmts :
    (unit.withScopeStmts stmts).importScope = unit.importScope := by
  rw [importScope, importScope, (scope_withScopeStmts kept).1]

end Rewritten

/-- Resolving leaves a unit as it is only if its scope requires nothing or has the sorted union of
its imports and the required ones already. Otherwise it gives the scope that union, with the imports
together in their place, changes nothing outside of the scope and leaves nothing to resolve. -/
theorem resolveImports_sorted_union (unit : SourceUnit) (ledger : Ledger) :
    let required := ledger.requiredIn unit.importScope
    match unit.resolveImports? ledger with
    | none => required = [] ∨ Stmt.SortedUnion required unit.scopeStmts unit.scopeStmts
    | some written =>
        required ≠ [] ∧ Stmt.SortedUnion required unit.scopeStmts written.scopeStmts ∧
          written = unit.withScopeStmts written.scopeStmts ∧
          Stmt.Gathered unit.firstNamespace?.isNone written.scopeStmts ∧
          written.resolveImports? ledger = none := by
  intro required
  have union := Stmt.sortedUnion_getD_resolve? required unit.firstNamespace?.isNone unit.scopeStmts
  have again := Stmt.resolve?_getD_resolve? required unit.firstNamespace?.isNone unit.scopeStmts
  rw [resolveImports?_eq_map]
  cases resolved : Stmt.resolve? required unit.firstNamespace?.isNone unit.scopeStmts with
  | none =>
      rw [resolved, Option.getD_none] at union
      exact union
  | some stmts =>
      rw [resolved, Option.getD_some] at union again
      have nonempty : required ≠ [] := by
        intro empty
        rw [empty, Stmt.resolve?_nil] at resolved
        cases resolved
      have union := union.resolve_left nonempty
      obtain ⟨first, scope⟩ := scope_withScopeStmts union.others
      refine ⟨nonempty, ?_, ?_, ?_, ?_⟩
      · rw [scope]
        exact union
      · rw [scope]
      · rw [scope]
        exact Stmt.gathered_of_resolve?_eq_some resolved
      · rw [resolveImports?_eq_map, importScope_withScopeStmts union.others, first, scope, again,
          Option.map_none]

end SourceUnit

end TagLift
