import TagLift.Edit.Apply
import TagLift.Proofs.Text.Bare
import TagLift.Proofs.Text.Offset

/-!
# Edits that can be applied

A list of edits is accepted exactly if, once in order, every edit is in bounds and starts where
the one before it has ended or later. Then the sweep copies the source between the edits.

Leaving out insertions keeps such a chain, and keeps the order of the other edits.
-/

namespace TagLift

namespace Edit

/-! ## The order of edits -/

theorem precedes_trans (a b c : Edit) (first : precedes a b) (second : precedes b c) :
    precedes a c := by
  simp only [precedes, Bool.or_eq_true, Bool.and_eq_true, decide_eq_true_eq, beq_iff_eq] at *
  omega

theorem precedes_total (a b : Edit) : precedes a b || precedes b a := by
  simp only [precedes, Bool.or_eq_true, Bool.and_eq_true, decide_eq_true_eq, beq_iff_eq]
  omega

theorem pairwise_ordered (edits : List Edit) :
    (ordered edits).Pairwise fun a b => precedes a b :=
  List.pairwise_mergeSort precedes_trans precedes_total edits

@[simp] theorem mem_ordered {edit : Edit} {edits : List Edit} :
    edit ∈ ordered edits ↔ edit ∈ edits :=
  List.mem_mergeSort

/-! ## Chains -/

theorem inBounds_iff {source : Text} {edit : Edit} :
    edit.inBounds source ↔ edit.start ≤ edit.stop ∧ Text.isBoundary edit.start source ∧
      Text.isBoundary edit.stop source := by
  simp only [inBounds, Bool.and_eq_true, decide_eq_true_eq]
  constructor
  · rintro ⟨⟨⟨order, -⟩, start⟩, stop⟩
    exact ⟨order, start, stop⟩
  · rintro ⟨order, start, stop⟩
    exact ⟨⟨⟨order, Text.le_byteSize_of_isBoundary stop⟩, start⟩, stop⟩

/-- Edits in bounds of which each starts where the one before it has ended or later, the first
one at an offset or later. -/
def Chain (source : Text) : Nat → List Edit → Prop
  | _, [] => True
  | offset, edit :: edits =>
      offset ≤ edit.start ∧ edit.inBounds source ∧ Chain source edit.stop edits

instance decidableChain (source : Text) :
    (offset : Nat) → (edits : List Edit) → Decidable (Chain source offset edits)
  | _, [] => .isTrue trivial
  | _, edit :: edits =>
      have := decidableChain source edit.stop edits
      inferInstanceAs (Decidable (_ ∧ _ ∧ _))

namespace Chain

variable {source : Text} {offset : Nat} {edits : List Edit}

theorem mono {earlier : Nat} (order : earlier ≤ offset) (chain : Chain source offset edits) :
    Chain source earlier edits := by
  cases edits with
  | nil => trivial
  | cons edit edits => exact ⟨Nat.le_trans order chain.1, chain.2⟩

theorem inBounds (chain : Chain source offset edits) {edit : Edit} (member : edit ∈ edits) :
    edit.inBounds source := by
  induction edits generalizing offset with
  | nil => cases member
  | cons first edits ih =>
      rcases List.mem_cons.1 member with rfl | later
      · exact chain.2.1
      · exact ih chain.2.2 later

theorem firstConflict?_eq_none (chain : Chain source offset edits) :
    firstConflict? edits = none := by
  induction edits generalizing offset with
  | nil => rfl
  | cons first edits ih =>
      cases edits with
      | nil => rfl
      | cons second edits =>
          have apart : first.stop ≤ second.start := chain.2.2.1
          have clear : (first.overlaps second || second.start < first.stop) = false := by
            simp [overlaps]
            omega
          simp only [firstConflict?, clear]
          exact ih chain.2.2

theorem of_firstConflict?_eq_none (valid : ∀ edit ∈ edits, edit.inBounds source)
    (clear : firstConflict? edits = none) (starts : ∀ edit ∈ edits.head?, offset ≤ edit.start) :
    Chain source offset edits := by
  induction edits generalizing offset with
  | nil => trivial
  | cons first edits ih =>
      refine ⟨starts first rfl, valid first (by simp), ?_⟩
      have later : ∀ edit ∈ edits, edit.inBounds source :=
        fun edit member => valid edit (by simp [member])
      cases edits with
      | nil => trivial
      | cons second edits =>
          rw [firstConflict?] at clear
          split at clear
          · cases clear
          next apart =>
            simp only [Bool.or_eq_true, decide_eq_true_eq, not_or, Nat.not_lt] at apart
            exact ih later clear (by simpa using apart.2)

end Chain

/-- The lists of edits that are accepted. -/
theorem validate_eq_ok_iff {source : Text} {edits : List Edit} :
    validate source edits = .ok () ↔ Chain source 0 (ordered edits) := by
  simp only [validate]
  constructor
  · intro accepted
    split at accepted
    · cases accepted
    next inside =>
      split at accepted
      · cases accepted
      next clear =>
        refine .of_firstConflict?_eq_none ?_ clear (by simp)
        intro edit member
        simpa using List.find?_eq_none.1 inside edit (mem_ordered.1 member)
  · intro chain
    have inside : edits.find? (fun edit => !edit.inBounds source) = none := by
      rw [List.find?_eq_none]
      intro edit member
      simp [chain.inBounds (mem_ordered.2 member)]
    rw [inside, chain.firstConflict?_eq_none]

theorem apply_eq_ok_iff {source text : Text} {edits : List Edit} :
    apply source edits = .ok text ↔
      Chain source 0 (ordered edits) ∧ sweep 0 source (ordered edits) = text := by
  rw [← validate_eq_ok_iff, apply]
  cases accepted : validate source edits with
  | error error => simp [bind, Except.bind]
  | ok =>
      constructor
      · intro equal
        exact ⟨rfl, Except.ok.inj equal⟩
      · rintro ⟨-, rfl⟩
        rfl

/-- Edits that stand in order are applied as they stand. -/
theorem apply_of_pairwise {source : Text} {edits : List Edit}
    (sorted : edits.Pairwise fun a b => precedes a b) (chain : Chain source 0 edits) :
    apply source edits = .ok (sweep 0 source edits) := by
  have same : ordered edits = edits := List.mergeSort_of_pairwise sorted
  rw [apply_eq_ok_iff, same]
  exact ⟨chain, rfl⟩

@[simp] theorem apply_nil (source : Text) : apply source [] = .ok source :=
  apply_of_pairwise .nil trivial

/-! ## Sweeping -/

/-- The sweep copies up to the next edit, writes its text and goes on behind it. -/
theorem sweep_cons {source : Text} {offset : Nat} {edit : Edit} {edits : List Edit}
    (boundary : Text.isBoundary offset source) (chain : Chain source offset (edit :: edits)) :
    sweep offset (Text.dropBytes offset source) (edit :: edits) =
      Text.slice offset edit.start source ++ edit.text ++
        sweep edit.stop (Text.dropBytes edit.stop source) edits := by
  obtain ⟨starts, valid, -⟩ := chain
  obtain ⟨order, -, -⟩ := inBounds_iff.1 valid
  rw [sweep, Text.dropBytes_dropBytes boundary,
    show offset + (edit.stop - offset) = edit.stop by omega]
  rfl

/-- The same in a part of the source that ends behind the edit. -/
theorem sweep_slice_cons {source : Text} {offset position : Nat} {edit : Edit} {edits : List Edit}
    (boundary : Text.isBoundary offset source) (chain : Chain source offset (edit :: edits))
    (before : edit.stop ≤ position) :
    sweep offset (Text.slice offset position source) (edit :: edits) =
      Text.slice offset edit.start source ++ edit.text ++
        sweep edit.stop (Text.slice edit.stop position source) edits := by
  obtain ⟨starts, valid, -⟩ := chain
  obtain ⟨order, start, stop⟩ := inBounds_iff.1 valid
  rw [sweep, Text.takeBytes_slice boundary start starts (Nat.le_trans order before),
    Text.dropBytes_slice boundary stop (Nat.le_trans starts order) before]

/-- The sweep may pause at any boundary before the next edit. -/
theorem sweep_pause {source : Text} {offset pause : Nat} {edits : List Edit}
    (boundary : Text.isBoundary offset source) (boundary' : Text.isBoundary pause source)
    (order : offset ≤ pause) (chain : Chain source pause edits) :
    sweep offset (Text.dropBytes offset source) edits =
      Text.slice offset pause source ++ sweep pause (Text.dropBytes pause source) edits := by
  cases edits with
  | nil =>
      simp only [sweep]
      rw [Text.slice_append_dropBytes boundary order]
  | cons edit edits =>
      rw [sweep_cons boundary (chain.mono order), sweep_cons boundary' chain,
        ← Text.slice_append_slice boundary boundary' order chain.1]
      simp only [List.append_assoc]

/-! ## Leaving out blank insertions -/

/-- Whether an edit only inserts white space. -/
def isBlankInsertion (edit : Edit) : Bool :=
  edit.start == edit.stop && edit.text.isAllBlank

/-- The second list is the first one with some blank insertions left out. -/
inductive Thinned : List Edit → List Edit → Prop where
  | nil : Thinned [] []
  | keep (edit : Edit) {edits fewer : List Edit} (rest : Thinned edits fewer) :
      Thinned (edit :: edits) (edit :: fewer)
  | drop {edit : Edit} (blank : edit.isBlankInsertion) {edits fewer : List Edit}
      (rest : Thinned edits fewer) : Thinned (edit :: edits) fewer

namespace Thinned

variable {edits fewer : List Edit}

theorem filter (p : Edit → Bool) (thinned : Thinned edits fewer) :
    Thinned (edits.filter p) (fewer.filter p) := by
  induction thinned with
  | nil => exact .nil
  | keep edit rest ih =>
      cases picked : p edit with
      | true => simpa [picked] using .keep edit ih
      | false => simpa [picked] using ih
  | @drop edit blank edits fewer rest ih =>
      cases picked : p edit with
      | true => simpa [picked] using .drop blank ih
      | false => simpa [picked] using ih

theorem append {others fewerOthers : List Edit} (thinned : Thinned edits fewer)
    (rest : Thinned others fewerOthers) : Thinned (edits ++ others) (fewer ++ fewerOthers) := by
  induction thinned with
  | nil => exact rest
  | keep edit _ ih => exact .keep edit ih
  | drop blank _ ih => exact .drop blank ih

theorem nil_of_blank (blank : ∀ edit ∈ edits, edit.isBlankInsertion) : Thinned edits [] := by
  induction edits with
  | nil => exact .nil
  | cons edit edits ih =>
      exact .drop (blank edit (by simp)) (ih fun other member => blank other (by simp [member]))

end Thinned

/-- An edit that is added in front of a list goes behind the edits that it does not precede. -/
theorem ordered_cons (edit : Edit) (edits : List Edit) :
    ordered (edit :: edits) =
      (ordered edits).filter (!precedes edit ·) ++
        edit :: (ordered edits).filter (precedes edit) := by
  obtain ⟨before, after, whole, others, first⟩ :=
    List.mergeSort_cons precedes_trans precedes_total edit edits
  have sorted := pairwise_ordered (edit :: edits)
  rw [ordered, whole] at sorted
  have later : ∀ other ∈ after, precedes edit other :=
    (List.pairwise_cons.1 (List.pairwise_append.1 sorted).2.1).1
  have notBefore : before.filter (precedes edit) = [] :=
    List.filter_eq_nil_iff.2 fun other member => by simpa using first other member
  have notAfter : after.filter (!precedes edit ·) = [] :=
    List.filter_eq_nil_iff.2 fun other member => by simp [later other member]
  have allBefore : before.filter (!precedes edit ·) = before := List.filter_eq_self.2 first
  have allAfter : after.filter (precedes edit) = after := List.filter_eq_self.2 later
  rw [ordered, ordered, whole, others, List.filter_append, List.filter_append, notBefore, notAfter,
    allBefore, allAfter, List.append_nil, List.nil_append]

/-- Blank insertions behind the other edits do not change the order of these. -/
theorem thinned_ordered {blanks : List Edit} (blank : ∀ edit ∈ blanks, edit.isBlankInsertion)
    (edits : List Edit) : Thinned (ordered (edits ++ blanks)) (ordered edits) := by
  induction edits with
  | nil =>
      simpa [ordered] using
        Thinned.nil_of_blank fun edit member => blank edit (mem_ordered.1 member)
  | cons edit edits ih =>
      rw [List.cons_append, ordered_cons, ordered_cons]
      exact (ih.filter _).append (.keep edit (ih.filter _))

theorem Thinned.chain {source : Text} {offset : Nat} {edits fewer : List Edit}
    (thinned : Thinned edits fewer) (chain : Chain source offset edits) :
    Chain source offset fewer := by
  induction thinned generalizing offset with
  | nil => trivial
  | keep edit _ ih => exact ⟨chain.1, chain.2.1, ih chain.2.2⟩
  | @drop edit blank edits fewer _ ih =>
      obtain ⟨starts, valid, rest⟩ := chain
      have order := (inBounds_iff.1 valid).1
      exact ih (rest.mono (Nat.le_trans starts order))

/-- Without the blank insertions the sweep gives the same bare text. -/
theorem Thinned.bare_sweep {source : Text} {offset : Nat} {edits fewer : List Edit}
    (thinned : Thinned edits fewer) (boundary : Text.isBoundary offset source)
    (chain : Chain source offset edits) :
    Text.bare (sweep offset (Text.dropBytes offset source) edits) =
      Text.bare (sweep offset (Text.dropBytes offset source) fewer) := by
  induction thinned generalizing offset with
  | nil => rfl
  | @keep edit edits fewer rest ih =>
      have stop := (inBounds_iff.1 chain.2.1).2.2
      rw [sweep_cons boundary chain, sweep_cons boundary ((rest.keep edit).chain chain),
        Text.bare_append, ih stop chain.2.2, Text.bare_append _ (sweep _ _ _)]
  | @drop edit blank edits fewer rest ih =>
      obtain ⟨start, stop, text⟩ := edit
      obtain ⟨rfl, white⟩ : start = stop ∧ text.isAllBlank := by
        simpa [isBlankInsertion] using blank
      have here : Text.isBoundary start source := (inBounds_iff.1 chain.2.1).2.1
      rw [sweep_cons boundary chain, sweep_pause boundary here chain.1 (rest.chain chain.2.2)]
      simp [Text.bare_eq_nil white, ih here chain.2.2]

/-- Leaving out blank insertions, the edits still apply and give the same bare text. -/
theorem bare_apply {source text : Text} {edits blanks : List Edit}
    (blank : ∀ edit ∈ blanks, edit.isBlankInsertion)
    (applied : apply source (edits ++ blanks) = .ok text) :
    ∃ less, apply source edits = .ok less ∧ Text.bare text = Text.bare less := by
  obtain ⟨chain, rfl⟩ := apply_eq_ok_iff.1 applied
  have thinned := thinned_ordered blank edits
  have same := thinned.bare_sweep (Text.isBoundary_zero source) chain
  rw [Text.dropBytes_zero] at same
  exact ⟨_, apply_eq_ok_iff.2 ⟨thinned.chain chain, rfl⟩, same⟩

end Edit

end TagLift
