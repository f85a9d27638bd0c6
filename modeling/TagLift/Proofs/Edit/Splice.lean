import TagLift.Proofs.Edit.Apart

/-!
# Edits spliced one at a time

A list of edits is accepted exactly if every edit is in bounds and any two of them keep apart. The
sweep over an accepted list then does what splicing the edits one at a time does, from the last to
the first. A splice leaves the text in front of it as it was, so every edit finds its own offsets
where they were in the source.
-/

namespace TagLift

namespace Edit

/-- The text with the span of an edit replaced, if the edit is in bounds of this text. -/
def splice? (edit : Edit) (text : Text) : Option Text :=
  if edit.inBounds text then
    some (Text.takeBytes edit.start text ++ edit.text ++ Text.dropBytes edit.stop text)
  else none

/-- Numbered edits by start, then by stop, then by number. -/
def numberedPrecedes (left right : Edit × Nat) : Bool :=
  left.1.start < right.1.start ||
    (left.1.start == right.1.start &&
      (left.1.stop < right.1.stop || (left.1.stop == right.1.stop && left.2 ≤ right.2)))

/-- The edits by start, then by stop, then by their position in the list. -/
def byPlace (edits : List Edit) : List Edit :=
  (edits.zipIdx.mergeSort numberedPrecedes).map Prod.fst

/-- The source with the edits spliced in one at a time, from the last to the first, as long as
each is in bounds of what the later ones have made of the source. -/
def spliceAll? (source : Text) (edits : List Edit) : Option Text :=
  (byPlace edits).foldrM splice? source

/-- Every edit is in range and cuts no character, and any two edits of the list keep apart. -/
structure Separate (source : Text) (edits : List Edit) : Prop where
  inRange : ∀ edit ∈ edits, edit.start ≤ edit.stop ∧ edit.stop ≤ source.byteSize ∧
    Text.isBoundary edit.start source ∧ Text.isBoundary edit.stop source
  apart : ∀ (i j : Nat) (left right : Edit), edits[i]? = some left → edits[j]? = some right →
    i ≠ j → left.stop ≤ right.start ∨ right.stop ≤ left.start

/-! ## Lists that are accepted -/

theorem pairwise_apart_iff {edits : List Edit} :
    edits.Pairwise Apart ↔
      ∀ (i j : Nat) (left right : Edit), edits[i]? = some left → edits[j]? = some right →
        i ≠ j → Apart left right := by
  rw [List.pairwise_iff_getElem]
  constructor
  · intro ordered i j left right first second different
    obtain ⟨boundI, rfl⟩ := List.getElem?_eq_some_iff.1 first
    obtain ⟨boundJ, rfl⟩ := List.getElem?_eq_some_iff.1 second
    rcases Nat.lt_or_gt_of_ne different with before | after
    · exact ordered i j boundI boundJ before
    · exact (ordered j i boundJ boundI after).symm
  · intro all i j boundI boundJ before
    exact all i j _ _ (List.getElem?_eq_getElem boundI) (List.getElem?_eq_getElem boundJ)
      (Nat.ne_of_lt before)

/-- The edits make a chain once in order exactly if they are separate as they stand. -/
theorem chain_ordered_iff {source : Text} {edits : List Edit} :
    Chain source 0 (ordered edits) ↔ Separate source edits := by
  constructor
  · intro chain
    constructor
    · intro edit member
      have inside := chain.inBounds (mem_ordered.2 member)
      simpa only [inBounds, Bool.and_eq_true, decide_eq_true_eq, and_assoc] using inside
    · exact pairwise_apart_iff.1 chain.pairwise_apart
  · intro separate
    apply chain_ordered
    · intro edit member
      simpa only [inBounds, Bool.and_eq_true, decide_eq_true_eq, and_assoc] using
        separate.inRange edit member
    · exact pairwise_apart_iff.2 separate.apart

/-! ## Splicing -/

/-- The order of the sweep is the order by place: sorting keeps edits of one span as they are. -/
theorem ordered_eq_byPlace (edits : List Edit) : ordered edits = byPlace edits := by
  have sameOrder : numberedPrecedes = List.zipIdxLE precedes := by
    funext left right
    rw [Bool.eq_iff_iff]
    simp only [numberedPrecedes, List.zipIdxLE, precedes, Bool.or_eq_true, Bool.and_eq_true,
      decide_eq_true_eq, beq_iff_eq]
    grind
  rw [byPlace, sameOrder, List.mergeSort_zipIdx, ordered]

/-- A splice between two parts of a text replaces what is between them. -/
theorem splice?_append {edit : Edit} {front middle back : Text}
    (start : front.byteSize = edit.start) (stop : (front ++ middle).byteSize = edit.stop) :
    edit.splice? (front ++ middle ++ back) = some (front ++ edit.text ++ back) := by
  have inside : edit.inBounds (front ++ middle ++ back) := by
    rw [inBounds_iff, ← start, ← stop]
    refine ⟨?_, ?_, Text.isBoundary_append _ _⟩
    · simp
    · rw [List.append_assoc]
      exact Text.isBoundary_append _ _
  have before : Text.takeBytes edit.start (front ++ middle ++ back) = front := by
    rw [← start, List.append_assoc, Text.takeBytes_append]
  have after : Text.dropBytes edit.stop (front ++ middle ++ back) = back := by
    rw [← stop, Text.dropBytes_append]
  rw [splice?, if_pos inside, before, after]

/-- Splicing in the edits of a chain from the last to the first leaves the source in front of the
chain as it was and sweeps over the rest. -/
theorem Chain.foldrM_splice? {source : Text} {offset : Nat} {edits : List Edit}
    (chain : Chain source offset edits) (boundary : Text.isBoundary offset source) :
    edits.foldrM splice? source =
      some (Text.takeBytes offset source ++
        sweep offset (Text.dropBytes offset source) edits) := by
  induction edits generalizing offset with
  | nil => simp [sweep]
  | cons edit edits ih =>
      obtain ⟨order, start, stop⟩ := inBounds_iff.1 chain.2.1
      -- The later edits have changed nothing in front of where this one ends.
      have later := ih chain.2.2 stop
      have front : Text.takeBytes edit.stop source =
          Text.takeBytes edit.start source ++ Text.slice edit.start edit.stop source :=
        (Text.takeBytes_append_slice start order).symm
      have here : edit.splice? (Text.takeBytes edit.stop source ++
          sweep edit.stop (Text.dropBytes edit.stop source) edits) =
          some (Text.takeBytes edit.start source ++ edit.text ++
            sweep edit.stop (Text.dropBytes edit.stop source) edits) := by
        rw [front]
        apply splice?_append
        · exact Text.byteSize_takeBytes start
        · rw [← front]
          exact Text.byteSize_takeBytes stop
      rw [List.foldrM_cons, later, Option.bind_eq_bind, Option.bind_some, here,
        sweep_cons boundary chain, ← Text.takeBytes_append_slice boundary chain.1]
      simp only [List.append_assoc]

/-- Exactly the separate edits are accepted, and applying them is splicing them into the source
one at a time, from the last to the first, each at the offsets it has in the source. -/
theorem apply_eq_spliceAll (source : Text) (edits : List Edit) :
    ((∃ text, apply source edits = .ok text) ↔ Separate source edits) ∧
      ∀ text, apply source edits = .ok text → spliceAll? source edits = some text := by
  constructor
  · simp only [apply_eq_ok_iff, exists_and_left, exists_eq', and_true, chain_ordered_iff]
  · intro text applied
    obtain ⟨chain, swept⟩ := apply_eq_ok_iff.1 applied
    have spliced := chain.foldrM_splice? (Text.isBoundary_zero source)
    rwa [Text.takeBytes_zero, Text.dropBytes_zero, List.nil_append, swept,
      ordered_eq_byPlace] at spliced

end Edit

end TagLift
