import TagLift.Import.Basic
import Mathlib.Data.List.Sort

/-!
# Sorting without repetition

For a lawful order, `sortUnique` gives the one list that is strictly increasing and has the
members of its input. So it depends on the members alone, and a list that is already increasing
stays as it is. The orders of texts and of imports are lawful.
-/

namespace TagLift

section Sorted

variable {α : Type} {order : α → α → Ordering}

/-- Every element comes strictly before all later ones. -/
def Increasing (order : α → α → Ordering) (items : List α) : Prop :=
  items.Pairwise fun a b => order a b = .lt

variable [Std.LawfulEqCmp order]

@[simp] theorem mem_insertSorted {a item : α} {items : List α} :
    item ∈ insertSorted order a items ↔ item = a ∨ item ∈ items := by
  induction items with
  | nil => simp [insertSorted]
  | cons first rest ih =>
      rw [insertSorted]
      split
      · simp
      next equal =>
        have same : a = first := Std.LawfulEqCmp.eq_of_compare equal
        simp [same]
      · simp only [List.mem_cons, ih]
        exact or_left_comm

@[simp] theorem mem_sortUnique {item : α} {items : List α} :
    item ∈ sortUnique order items ↔ item ∈ items := by
  induction items with
  | nil => simp [sortUnique]
  | cons first rest ih => simp [sortUnique, ih]

variable [Std.TransCmp order]

theorem Increasing.insertSorted {items : List α} (increasing : Increasing order items) (a : α) :
    Increasing order (insertSorted order a items) := by
  induction items with
  | nil => simp [TagLift.insertSorted, Increasing]
  | cons first rest ih =>
      have ⟨before, tail⟩ := List.pairwise_cons.1 increasing
      rw [TagLift.insertSorted]
      split
      next less =>
        refine List.pairwise_cons.2 ⟨?_, increasing⟩
        intro item member
        rcases List.mem_cons.1 member with rfl | later
        · exact less
        · exact Std.TransCmp.lt_trans less (before item later)
      · exact increasing
      next greater =>
        refine List.pairwise_cons.2 ⟨?_, ih tail⟩
        intro item member
        rcases mem_insertSorted.1 member with rfl | later
        · exact Std.OrientedCmp.gt_iff_lt.1 greater
        · exact before item later

theorem increasing_sortUnique (items : List α) : Increasing order (sortUnique order items) := by
  induction items with
  | nil => simp [sortUnique, Increasing]
  | cons first rest ih => exact ih.insertSorted first

/-- An increasing list is determined by its members. -/
theorem Increasing.eq_of_mem_iff {items others : List α} (increasing : Increasing order items)
    (othersIncreasing : Increasing order others) (same : ∀ item, item ∈ items ↔ item ∈ others) :
    items = others := by
  have : Std.Antisymm fun a b => order a b = .lt :=
    ⟨fun a b less greater => by
      rw [Std.OrientedCmp.gt_of_lt less] at greater
      contradiction⟩
  have : Std.Irrefl fun a b => order a b = .lt :=
    ⟨fun a less => absurd (less.symm.trans Std.ReflCmp.compare_self) (by decide)⟩
  exact List.Pairwise.eq_of_mem_iff increasing othersIncreasing same

/-- Sorting depends on the members alone. -/
theorem sortUnique_eq_of_mem_iff {items others : List α}
    (same : ∀ item, item ∈ items ↔ item ∈ others) :
    sortUnique order items = sortUnique order others :=
  (increasing_sortUnique items).eq_of_mem_iff (increasing_sortUnique others) (by simpa using same)

/-- A list that has no new member against an increasing one sorts to the increasing one. -/
theorem Increasing.sortUnique_append {items extra : List α} (increasing : Increasing order items)
    (known : extra ⊆ items) : sortUnique order (items ++ extra) = items := by
  apply (increasing_sortUnique _).eq_of_mem_iff increasing
  intro item
  simp only [mem_sortUnique, List.mem_append]
  exact ⟨fun member => member.elim id (known ·), Or.inl⟩

end Sorted

section Orders

/-- Comparing images keeps the laws of an order. -/
private theorem transCmp_on {α β : Type} (image : α → β) (cmp : β → β → Ordering)
    [Std.TransCmp cmp] : Std.TransCmp fun a b => cmp (image a) (image b) where
  eq_swap := Std.OrientedCmp.eq_swap
  isLE_trans := Std.TransCmp.isLE_trans

instance : Std.TransCmp Text.compare :=
  have := transCmp_on Char.toNat (compare (α := Nat))
  inferInstanceAs (Std.TransCmp (List.compareLex fun a b : Char => compare a.toNat b.toNat))

instance : Std.LawfulEqCmp Text.compare :=
  have : Std.LawfulEqCmp fun a b : Char => compare a.toNat b.toNat :=
    { compare_self := by simp
      eq_of_compare := fun equal => Char.toNat_inj.1 (by simpa using equal) }
  inferInstanceAs (Std.LawfulEqCmp (List.compareLex fun a b : Char => compare a.toNat b.toNat))

instance : Std.TransCmp Import.compareOption where
  eq_swap {left right} := by
    cases left <;> cases right <;> simp [Import.compareOption]
    exact Std.OrientedCmp.eq_swap
  isLE_trans {left middle right} first second := by
    cases left <;> cases middle <;> cases right <;> simp_all [Import.compareOption]
    exact Std.TransCmp.isLE_trans first second

instance : Std.TransCmp Import.order :=
  have := transCmp_on (fun decl : Import => decl.kind.rank) (compare (α := Nat))
  have := transCmp_on Import.name Text.compare
  have := transCmp_on Import.asName Import.compareOption
  inferInstanceAs (Std.TransCmp (compareLex
    (fun a b : Import => compare a.kind.rank b.kind.rank)
    (compareLex (fun a b : Import => Text.compare a.name b.name)
      (fun a b : Import => Import.compareOption a.asName b.asName))))

private theorem eq_of_compareOption {left right : Option Text}
    (equal : Import.compareOption left right = .eq) : left = right := by
  cases left <;> cases right <;> simp_all [Import.compareOption]

private theorem eq_of_rank {left right : ImportKind} (equal : left.rank = right.rank) :
    left = right := by
  cases left <;> cases right <;> simp_all [ImportKind.rank]

instance : Std.LawfulEqCmp Import.order where
  compare_self := Std.ReflCmp.compare_self
  eq_of_compare {left right} equal := by
    simp only [Import.order, Ordering.then_eq_eq, Std.LawfulEqCmp.compare_eq_iff_eq] at equal
    obtain ⟨kind, name, asName⟩ := left
    obtain ⟨sameRank, rfl, sameName⟩ := equal
    obtain rfl := eq_of_rank sameRank
    obtain rfl := eq_of_compareOption sameName
    rfl

end Orders

end TagLift
