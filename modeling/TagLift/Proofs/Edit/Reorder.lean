import TagLift.Proofs.Edit.Apart

/-!
# Edits listed in another order

Whether a list of edits is accepted does not depend on its order at all, since being in bounds and
keeping apart do not. The order of application does depend on it, but only among edits of one span:
sorting is stable, and a list in order is known once the edits of each span are.
-/

namespace TagLift

namespace Edit

/-- The accepted lists, without a word about their order. -/
theorem validate_eq_ok_iff_apart {source : Text} {edits : List Edit} :
    validate source edits = .ok () ↔
      (∀ edit ∈ edits, edit.inBounds source) ∧ edits.Pairwise Apart := by
  rw [validate_eq_ok_iff]
  constructor
  · intro chain
    exact ⟨fun edit member => chain.inBounds (mem_ordered.2 member), chain.pairwise_apart⟩
  · rintro ⟨valid, apart⟩
    exact chain_ordered valid apart

theorem validate_eq_ok_iff_of_perm {source : Text} {edits others : List Edit}
    (perm : edits.Perm others) :
    validate source edits = .ok () ↔ validate source others = .ok () := by
  simp only [validate_eq_ok_iff_apart, perm.mem_iff, perm.pairwise_iff Apart.symm]

/-! ## Stable order -/

theorem precedes_of_span_eq {left right : Edit} (same : left.span = right.span) :
    precedes left right := by
  simp only [span, Span.mk.injEq] at same
  simp [precedes, same]

theorem span_eq_of_precedes {left right : Edit} (first : precedes left right)
    (second : precedes right left) : left.span = right.span := by
  simp only [precedes, Bool.or_eq_true, Bool.and_eq_true, decide_eq_true_eq, beq_iff_eq] at *
  simp only [span, Span.mk.injEq]
  omega

/-- Putting edits in order keeps those of one span as they were listed. -/
theorem filter_span_ordered (place : Span) (edits : List Edit) :
    (ordered edits).filter (·.span = place) = edits.filter (·.span = place) := by
  have sorted : (edits.filter (·.span = place)).Pairwise fun a b => precedes a b := by
    refine List.pairwise_of_forall_mem_list fun left here right there => ?_
    have leftPlace : left.span = place := by simpa using (List.mem_filter.1 here).2
    have rightPlace : right.span = place := by simpa using (List.mem_filter.1 there).2
    exact precedes_of_span_eq (leftPlace.trans rightPlace.symm)
  have inside : (edits.filter (·.span = place)).Sublist (ordered edits) :=
    List.sublist_mergeSort precedes_trans precedes_total sorted List.filter_sublist
  have among := inside.filter (·.span = place)
  rw [List.filter_filter] at among
  simp only [Bool.and_self] at among
  have length : (edits.filter (·.span = place)).length =
      ((ordered edits).filter (·.span = place)).length :=
    ((List.mergeSort_perm edits precedes).symm.filter _).length_eq
  exact (among.eq_of_length length).symm

theorem mem_iff_of_filter_span_eq {edits others : List Edit}
    (same : ∀ place, edits.filter (·.span = place) = others.filter (·.span = place)) (edit : Edit) :
    edit ∈ edits ↔ edit ∈ others := by
  have here := congrArg (edit ∈ ·) (same edit.span)
  simpa using here

/-- Two lists in order are equal if each span has the same edits in both, in the same order. -/
theorem eq_of_filter_span_eq {edits others : List Edit}
    (sorted : edits.Pairwise fun a b => precedes a b)
    (sorted' : others.Pairwise fun a b => precedes a b)
    (same : ∀ place, edits.filter (·.span = place) = others.filter (·.span = place)) :
    edits = others := by
  induction edits generalizing others with
  | nil =>
      refine (List.eq_nil_iff_forall_not_mem.2 fun edit member => ?_).symm
      simpa using (mem_iff_of_filter_span_eq same edit).2 member
  | cons first edits ih =>
      have forth := (mem_iff_of_filter_span_eq same first).1 (by simp)
      cases others with
      | nil => cases forth
      | cons second others =>
          have back := (mem_iff_of_filter_span_eq same second).2 (by simp)
          obtain ⟨least, rest⟩ := List.pairwise_cons.1 sorted
          obtain ⟨least', rest'⟩ := List.pairwise_cons.1 sorted'
          -- Each of the two first edits precedes the other one, so they have one span.
          have spans : first.span = second.span := by
            rcases List.mem_cons.1 forth with rfl | later
            · rfl
            rcases List.mem_cons.1 back with rfl | later'
            · rfl
            exact span_eq_of_precedes (least second later') (least' first later)
          have heads := same first.span
          rw [List.filter_cons_of_pos (by simp), List.filter_cons_of_pos (by simp [spans])] at heads
          obtain ⟨rfl, -⟩ := List.cons.inj heads
          refine congrArg (first :: ·) (ih rest rest' fun place => ?_)
          have here := same place
          by_cases placed : first.span = place
          · simpa [placed] using here
          · simpa [placed] using here

theorem ordered_eq_of_filter_span_eq {edits others : List Edit}
    (same : ∀ place, edits.filter (·.span = place) = others.filter (·.span = place)) :
    ordered edits = ordered others := by
  apply eq_of_filter_span_eq (pairwise_ordered edits) (pairwise_ordered others)
  intro place
  rw [filter_span_ordered, filter_span_ordered, same]

/-- Two lists of the same edits that list the edits of each span in the same order are accepted or
refused alike, and accepted they give the same text. -/
theorem apply_eq_of_reordered (source : Text) {edits others : List Edit}
    (perm : edits.Perm others)
    (same : ∀ place, edits.filter (·.span = place) = others.filter (·.span = place)) :
    (validate source edits = .ok () ↔ validate source others = .ok ()) ∧
      (validate source edits = .ok () →
        ∃ text, apply source edits = .ok text ∧ apply source others = .ok text) := by
  refine ⟨validate_eq_ok_iff_of_perm perm, fun accepted => ?_⟩
  have chain := validate_eq_ok_iff.1 accepted
  have order := ordered_eq_of_filter_span_eq same
  refine ⟨_, apply_eq_ok_iff.2 ⟨chain, rfl⟩, ?_⟩
  rw [order] at chain ⊢
  exact apply_eq_ok_iff.2 ⟨chain, rfl⟩

/-- Two insertions at one place keep their order, and two replacements change places around
them. -/
theorem apply_eq_of_reordered_insertions :
    let source : Text := "abcdef".toList
    let edits : List Edit := [⟨4, 6, ['z']⟩, .insert 2 ['x'], .insert 2 ['y'], ⟨0, 2, []⟩]
    let others : List Edit := [⟨0, 2, []⟩, .insert 2 ['x'], ⟨4, 6, ['z']⟩, .insert 2 ['y']]
    edits.Perm others ∧ validate source edits = .ok () ∧ validate source others = .ok () ∧
      ∃ text, apply source edits = .ok text ∧ apply source others = .ok text := by
  intro source edits others
  have perm : edits.Perm others := by decide
  have same : ∀ place, edits.filter (·.span = place) = others.filter (·.span = place) := by
    intro place
    simp only [edits, others, List.filter_cons, List.filter_nil, insert, span]
    grind
  have accepted : validate source edits = .ok () :=
    validate_eq_ok_iff_apart.2 ⟨by decide +kernel, by decide⟩
  obtain ⟨alike, applied⟩ := apply_eq_of_reordered source perm same
  exact ⟨perm, accepted, alike.1 accepted, applied accepted⟩

end Edit

end TagLift
