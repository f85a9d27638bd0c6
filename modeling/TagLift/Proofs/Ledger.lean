import TagLift.Ledger
import TagLift.Proofs.Sorted
import Mathlib.Data.List.Basic

/-!
# What a visit leaves in the ledger

A visit changes the ledger in three ways: it requires names in a scope, it raises the two counts,
and it adds references to the innermost open class. The first two are one operation,
`Ledger.recordIn`, so that a sequence of visits is a single record of all they did.
-/

namespace TagLift

namespace Ledger

/-! ## Required names and counts -/

/-- Append an entry unless it is there. -/
def addEntry (required : List (ImportScope × Text)) (entry : ImportScope × Text) :
    List (ImportScope × Text) :=
  if required.contains entry then required else required ++ [entry]

/-- Require names in a scope and raise both counts. -/
def recordIn (ledger : Ledger) (scope : ImportScope) (names : List Text)
    (inserted stripped : Nat) : Ledger :=
  { ledger with
    required := (names.map (scope, ·)).foldl addEntry ledger.required
    inserted := ledger.inserted + inserted
    stripped := ledger.stripped + stripped }

@[simp] theorem recordIn_frames (ledger : Ledger) (scope : ImportScope) (names : List Text)
    (inserted stripped : Nat) :
    (ledger.recordIn scope names inserted stripped).frames = ledger.frames := rfl

@[simp] theorem recordIn_inserted (ledger : Ledger) (scope : ImportScope) (names : List Text)
    (inserted stripped : Nat) :
    (ledger.recordIn scope names inserted stripped).inserted = ledger.inserted + inserted := rfl

@[simp] theorem recordIn_stripped (ledger : Ledger) (scope : ImportScope) (names : List Text)
    (inserted stripped : Nat) :
    (ledger.recordIn scope names inserted stripped).stripped = ledger.stripped + stripped := rfl

@[simp] theorem recordIn_currentScope (ledger : Ledger) (scope : ImportScope)
    (names : List Text) (inserted stripped : Nat) :
    (ledger.recordIn scope names inserted stripped).currentScope = ledger.currentScope := rfl

@[simp] theorem recordIn_nil (ledger : Ledger) (scope : ImportScope) :
    ledger.recordIn scope [] 0 0 = ledger := rfl

theorem requireImport_eq_recordIn (ledger : Ledger) (name : Text) :
    ledger.requireImport name = ledger.recordIn ledger.currentScope [name] 0 0 := by
  simp only [requireImport, recordIn, addEntry, List.map_cons, List.map_nil, List.foldl_cons,
    List.foldl_nil, List.contains_iff_mem]
  split <;> rfl

theorem mem_foldl_addEntry (entries required : List (ImportScope × Text))
    (entry : ImportScope × Text) :
    entry ∈ entries.foldl addEntry required ↔ entry ∈ required ∨ entry ∈ entries := by
  induction entries generalizing required with
  | nil => simp
  | cons first entries ih =>
      have added : entry ∈ addEntry required first ↔ entry ∈ required ∨ entry = first := by
        simp only [addEntry, List.contains_iff_mem]
        split
        next present =>
          constructor
          · exact Or.inl
          · rintro (member | rfl)
            · exact member
            · exact present
        next => simp
      rw [List.foldl_cons, ih, added, List.mem_cons, or_assoc]

/-- The entries after a record: the old ones and the names in the scope. -/
theorem mem_recordIn_required (ledger : Ledger) (scope : ImportScope) (names : List Text)
    (inserted stripped : Nat) (entry : ImportScope × Text) :
    entry ∈ (ledger.recordIn scope names inserted stripped).required ↔
      entry ∈ ledger.required ∨ entry.1 = scope ∧ entry.2 ∈ names := by
  obtain ⟨entryScope, name⟩ := entry
  simp only [recordIn, mem_foldl_addEntry, List.mem_map, Prod.mk.injEq]
  constructor
  · rintro (old | ⟨_, member, rfl, rfl⟩)
    · exact .inl old
    · exact .inr ⟨rfl, member⟩
  · rintro (old | ⟨rfl, member⟩)
    · exact .inl old
    · exact .inr ⟨name, member, rfl, rfl⟩

/-- Two records in a row are one. -/
theorem recordIn_recordIn (ledger : Ledger) (scope : ImportScope) (first second : List Text)
    (inserted stripped inserted' stripped' : Nat) :
    (ledger.recordIn scope first inserted stripped).recordIn scope second inserted' stripped' =
      ledger.recordIn scope (first ++ second) (inserted + inserted') (stripped + stripped') := by
  simp only [recordIn, List.map_append, List.foldl_append, Nat.add_assoc]

theorem mem_requiredIn {ledger : Ledger} {scope : ImportScope} {name : Text} :
    name ∈ ledger.requiredIn scope ↔ (scope, name) ∈ ledger.required := by
  rw [requiredIn, mem_sortUnique, List.mem_filterMap]
  constructor
  · rintro ⟨⟨entryScope, entryName⟩, member, equal⟩
    obtain ⟨rfl, rfl⟩ : entryScope = scope ∧ entryName = name := by simpa using equal
    exact member
  · intro member
    exact ⟨(scope, name), member, by simp⟩

/-- What a scope requires depends on the set of its entries alone. -/
theorem requiredIn_eq_sortUnique {ledger : Ledger} {scope : ImportScope} {names : List Text}
    (entries : ∀ name, (scope, name) ∈ ledger.required ↔ name ∈ names) :
    ledger.requiredIn scope = sortUnique Text.compare names := by
  apply sortUnique_eq_of_mem_iff
  intro name
  rw [← entries, ← mem_requiredIn, requiredIn, mem_sortUnique]

/-! ## Covered methods -/

/-- Append a reference unless it is there. -/
def addRef (covers : List CoversRef) (ref : CoversRef) : List CoversRef :=
  if ref ∈ covers then covers else covers ++ [ref]

/-- References appended one by one are the distinct ones, in the order they were first seen. -/
theorem foldl_addRef (refs covers : List CoversRef) :
    refs.foldl addRef covers = covers ++ (refs.filter (· ∉ covers)).eraseDups := by
  induction refs generalizing covers with
  | nil => simp
  | cons ref refs ih =>
      rw [List.foldl_cons, ih]
      by_cases seen : ref ∈ covers
      · simp [addRef, seen]
      · have later : refs.filter (· ∉ covers ++ [ref]) =
            (refs.filter (· ∉ covers)).filter (fun other => !other == ref) := by
          rw [List.filter_filter]
          apply List.filter_congr
          intro other _
          rw [Bool.eq_iff_iff]
          simp [and_comm]
        rw [addRef, if_neg seen, later, List.filter_cons_of_pos (by simpa using seen),
          List.eraseDups_cons]
        simp

/-- Keep references with the innermost open class, one after the other. -/
def recordAll (ledger : Ledger) (refs : List CoversRef) : Ledger :=
  refs.foldl (fun ledger ref => (ledger.recordCovers ref).2) ledger

@[simp] theorem recordAll_nil (ledger : Ledger) : ledger.recordAll [] = ledger := rfl

theorem recordAll_append (ledger : Ledger) (first second : List CoversRef) :
    ledger.recordAll (first ++ second) = (ledger.recordAll first).recordAll second := by
  simp [recordAll]

theorem recordCovers_recordIn (ledger : Ledger) (ref : CoversRef) (scope : ImportScope)
    (names : List Text) (inserted stripped : Nat) :
    ((ledger.recordIn scope names inserted stripped).recordCovers ref).2 =
      (ledger.recordCovers ref).2.recordIn scope names inserted stripped := by
  simp only [recordCovers, recordIn_frames]
  split <;> rfl

/-- References and names are kept apart. -/
theorem recordAll_recordIn (ledger : Ledger) (refs : List CoversRef) (scope : ImportScope)
    (names : List Text) (inserted stripped : Nat) :
    (ledger.recordIn scope names inserted stripped).recordAll refs =
      (ledger.recordAll refs).recordIn scope names inserted stripped := by
  induction refs generalizing ledger with
  | nil => rfl
  | cons ref refs ih =>
      change ((ledger.recordIn scope names inserted stripped).recordCovers ref).2.recordAll refs =
        ((ledger.recordCovers ref).2.recordAll refs).recordIn scope names inserted stripped
      rw [recordCovers_recordIn, ih]

/-- With a class open the references go to that class. -/
theorem recordAll_of_classLike (ledger : Ledger) (refs : List CoversRef) (frame : OpenClass)
    (rest : List Frame) :
    ({ ledger with frames := .classLike frame :: rest } : Ledger).recordAll refs =
      { ledger with
        frames := .classLike { frame with covers := refs.foldl addRef frame.covers } :: rest } := by
  induction refs generalizing frame with
  | nil => rfl
  | cons ref refs ih => exact ih { frame with covers := addRef frame.covers ref }

theorem scopeOf_addCovers {ref : CoversRef} {frames changed : List Frame}
    (added : addCovers ref frames = some changed) : scopeOf changed = scopeOf frames := by
  cases frames with
  | nil => simp [addCovers] at added
  | cons frame rest =>
      cases frame with
      | nspace scope =>
          obtain ⟨inner, -, rfl⟩ := Option.map_eq_some_iff.1 added
          rfl
      | classLike frame =>
          simp only [addCovers, Option.some.injEq] at added
          subst changed
          rfl

@[simp] theorem recordAll_currentScope (ledger : Ledger) (refs : List CoversRef) :
    (ledger.recordAll refs).currentScope = ledger.currentScope := by
  induction refs generalizing ledger with
  | nil => rfl
  | cons ref refs ih =>
      refine (ih _).trans ?_
      simp only [recordCovers, currentScope]
      split
      next frames added => exact scopeOf_addCovers added
      · rfl

/-! ## Entering and leaving -/

@[simp] theorem enterClass_currentScope (ledger : Ledger) (kind : ClassKind) (name : Text) :
    (ledger.enterClass kind name).currentScope = ledger.currentScope := rfl

/-- A class is left with the distinct references recorded since it was entered, and nothing else
of it stays behind. -/
theorem leaveClass_enterClass (ledger : Ledger) (kind : ClassKind) (name : Text)
    (refs : List CoversRef) (scope : ImportScope) (names : List Text) (inserted stripped : Nat) :
    (((ledger.enterClass kind name).recordAll refs).recordIn scope names inserted
      stripped).leaveClass =
      (some ⟨kind, name, refs.eraseDups⟩, ledger.recordIn scope names inserted stripped) := by
  rw [enterClass, recordAll_of_classLike, foldl_addRef]
  simp [leaveClass, recordIn]

@[simp] theorem enterNamespace_currentScope (ledger : Ledger) (index : Nat) :
    (ledger.enterNamespace index).currentScope = .nspace index := rfl

/-- A namespace that nothing was required in before is left with the names recorded since it was
entered, in order. -/
theorem leaveNamespace_enterNamespace {ledger : Ledger} {index : Nat}
    (fresh : ∀ name, (.nspace index, name) ∉ ledger.required) (names : List Text)
    (inserted stripped : Nat) :
    ((ledger.enterNamespace index).recordIn (.nspace index) names inserted
      stripped).leaveNamespace =
      (sortUnique Text.compare names, ledger.recordIn (.nspace index) names inserted stripped) := by
  have required : ((ledger.enterNamespace index).recordIn (.nspace index) names inserted
      stripped).requiredIn (.nspace index) = sortUnique Text.compare names := by
    apply requiredIn_eq_sortUnique
    intro name
    rw [mem_recordIn_required]
    simp [enterNamespace, fresh]
  simp only [leaveNamespace, ← required]
  rfl

end Ledger

end TagLift
