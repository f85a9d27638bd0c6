import TagLift.Proofs.Edit.Sweep
import Mathlib.Algebra.Ring.Nat

/-!
# Edits that keep apart

Two edits keep apart if neither reaches into what the other one replaces. Edits in bounds that
keep apart pairwise can be applied in any order of the list, and offsets can be mapped through
them. An offset that no edit covers lands where the text in front of it ends after the edits.
-/

namespace TagLift

namespace Edit

/-- One of two edits ends where the other one starts or earlier. -/
def Apart (left right : Edit) : Prop :=
  left.stop ≤ right.start ∨ right.stop ≤ left.start

instance (left right : Edit) : Decidable (Apart left right) :=
  inferInstanceAs (Decidable (_ ∨ _))

theorem Apart.symm {left right : Edit} (apart : Apart left right) : Apart right left :=
  Or.symm apart

/-- Insertions keep apart from each other, so only the edits that remove text matter. -/
theorem pairwise_apart {edits : List Edit} (order : ∀ edit ∈ edits, edit.start ≤ edit.stop)
    (removals : (edits.filter fun edit => edit.start < edit.stop).Pairwise Apart)
    (insertions : ∀ point ∈ edits, point.start = point.stop →
      ∀ removal ∈ edits, removal.start < removal.stop → Apart point removal) :
    edits.Pairwise Apart := by
  induction edits with
  | nil => exact .nil
  | cons edit edits ih =>
      have rest : edits.Pairwise Apart := by
        refine ih (fun other member => order other (by simp [member])) ?_ ?_
        · exact removals.sublist ((List.sublist_cons_self edit edits).filter _)
        · intro point member empty removal member' removes
          exact insertions point (by simp [member]) empty removal (by simp [member']) removes
      refine List.pairwise_cons.2 ⟨?_, rest⟩
      intro other member
      have order' := order other (by simp [member])
      rcases Nat.lt_or_eq_of_le (order edit (by simp)) with removes | empty
      · rcases Nat.lt_or_eq_of_le order' with removes' | empty'
        · rw [List.filter_cons_of_pos (by simpa using removes)] at removals
          exact (List.pairwise_cons.1 removals).1 other
            (List.mem_filter.2 ⟨member, by simpa using removes'⟩)
        · exact (insertions other (by simp [member]) empty' edit (by simp) removes).symm
      · rcases Nat.lt_or_eq_of_le order' with removes' | empty'
        · exact insertions edit (by simp) empty other (by simp [member]) removes'
        · simp only [Apart]
          omega

/-- Edits in bounds make a chain if each ends where every later one starts or earlier. -/
theorem Chain.of_pairwise {source : Text} {offset : Nat} {edits : List Edit}
    (valid : ∀ edit ∈ edits, edit.inBounds source)
    (after : edits.Pairwise fun a b => a.stop ≤ b.start)
    (starts : ∀ edit ∈ edits, offset ≤ edit.start) : Chain source offset edits := by
  induction edits generalizing offset with
  | nil => trivial
  | cons edit edits ih =>
      obtain ⟨afterHere, after⟩ := List.pairwise_cons.1 after
      exact ⟨starts edit (by simp), valid edit (by simp),
        ih (fun other member => valid other (by simp [member])) after afterHere⟩

section Applied

variable {source : Text} {edits : List Edit} (valid : ∀ edit ∈ edits, edit.inBounds source)
  (apart : edits.Pairwise Apart)

include valid apart

/-- In order, each edit starts where the one before has ended or later. -/
theorem chain_ordered : Chain source 0 (ordered edits) := by
  have valid' : ∀ edit ∈ ordered edits, edit.inBounds source :=
    fun edit member => valid edit (mem_ordered.1 member)
  have apart' : (ordered edits).Pairwise Apart :=
    apart.perm (List.mergeSort_perm edits precedes).symm Apart.symm
  refine .of_pairwise valid' ?_ fun _ _ => Nat.zero_le _
  refine ((pairwise_ordered edits).and apart').imp_of_mem fun {a b} _ member both => ?_
  have order := (inBounds_iff.1 (valid' b member)).1
  obtain ⟨before, clear⟩ := both
  simp only [precedes, Bool.or_eq_true, Bool.and_eq_true, decide_eq_true_eq, beq_iff_eq] at before
  simp only [Apart] at clear
  omega

theorem exists_apply_eq_ok : ∃ text, apply source edits = .ok text :=
  ⟨_, apply_eq_ok_iff.2 ⟨chain_ordered valid apart, rfl⟩⟩

end Applied

/-! ## Mapping offsets -/

/-- How many bytes of the source edits remove. -/
def removed (edits : List Edit) : Nat :=
  (edits.map fun edit => edit.stop - edit.start).sum

/-- How many bytes edits write. -/
def written (edits : List Edit) : Nat :=
  (edits.map fun edit => edit.text.byteSize).sum

/-- Shifting an offset by edits that remove no more than is in front of it. -/
theorem foldlM_shift? {edits : List Edit} (order : ∀ edit ∈ edits, edit.start ≤ edit.stop)
    {offset : Nat} (fits : removed edits ≤ offset) :
    edits.foldlM shift? offset = some (offset + written edits - removed edits) := by
  induction edits generalizing offset with
  | nil => simp [removed, written]
  | cons edit edits ih =>
      have here := order edit (by simp)
      simp only [removed, written, List.map_cons, List.sum_cons] at fits ⊢
      have step : shift? offset edit =
          some (offset + edit.text.byteSize - (edit.stop - edit.start)) :=
        if_pos ⟨here, by omega⟩
      have rest : removed edits ≤ offset + edit.text.byteSize - (edit.stop - edit.start) := by
        simp only [removed]
        omega
      rw [List.foldlM_cons, step, Option.bind_eq_bind, Option.bind_some,
        ih (fun other member => order other (by simp [member])) rest]
      simp only [removed, written]
      congr 1
      omega

theorem Chain.add_removed_le {source : Text} {offset position : Nat} {edits : List Edit}
    (chain : Chain source offset edits) (order : offset ≤ position)
    (before : ∀ edit ∈ edits, edit.stop ≤ position) : offset + removed edits ≤ position := by
  induction edits generalizing offset with
  | nil => simpa [removed] using order
  | cons edit edits ih =>
      obtain ⟨starts, valid, rest⟩ := chain
      have here := (inBounds_iff.1 valid).1
      have later := ih rest (before edit (by simp)) fun other member =>
        before other (by simp [member])
      simp only [removed, List.map_cons, List.sum_cons] at later ⊢
      omega

theorem removed_eq_of_perm {edits others : List Edit} (perm : edits.Perm others) :
    removed edits = removed others :=
  (perm.map _).sum_nat

theorem written_eq_of_perm {edits others : List Edit} (perm : edits.Perm others) :
    written edits = written others :=
  (perm.map _).sum_nat

theorem Chain.of_le_start {source : Text} {offset later : Nat} {edits : List Edit}
    (chain : Chain source offset edits) (starts : ∀ edit ∈ edits, later ≤ edit.start) :
    Chain source later edits := by
  cases edits with
  | nil => trivial
  | cons edit edits => exact ⟨starts edit (by simp), chain.2⟩

theorem Chain.le_start {source : Text} {offset : Nat} {edits : List Edit}
    (chain : Chain source offset edits) {edit : Edit} (member : edit ∈ edits) :
    offset ≤ edit.start := by
  induction edits generalizing offset with
  | nil => cases member
  | cons first edits ih =>
      obtain ⟨starts, valid, rest⟩ := chain
      have order := (inBounds_iff.1 valid).1
      rcases List.mem_cons.1 member with rfl | later
      · exact starts
      · have := ih rest later
        omega

/-- Each edit of a chain ends where every later one starts or earlier. -/
theorem Chain.pairwise {source : Text} {offset : Nat} {edits : List Edit}
    (chain : Chain source offset edits) : edits.Pairwise fun a b => a.stop ≤ b.start := by
  induction edits generalizing offset with
  | nil => exact .nil
  | cons edit edits ih =>
      refine List.pairwise_cons.2 ⟨?_, ih chain.2.2⟩
      exact fun other member => chain.2.2.le_start member

theorem Chain.stop_le {source : Text} {offset : Nat} {edits : List Edit}
    (chain : Chain source offset edits) {edit : Edit} (member : edit ∈ edits) :
    offset ≤ edit.stop :=
  Nat.le_trans (chain.le_start member) (inBounds_iff.1 (chain.inBounds member)).1

theorem Chain.sublist {source : Text} {offset : Nat} {edits fewer : List Edit}
    (chain : Chain source offset edits) (sublist : fewer.Sublist edits) :
    Chain source offset fewer :=
  .of_pairwise (fun _ member => chain.inBounds (sublist.subset member))
    (chain.pairwise.sublist sublist) fun _ member => chain.le_start (sublist.subset member)

/-- If the first edit of a chain ends behind a position, all edits do. -/
theorem Chain.filter_of_lt_stop {source : Text} {offset position : Nat} {edit : Edit}
    {edits : List Edit} (chain : Chain source offset (edit :: edits))
    (ends : position < edit.stop) :
    (edit :: edits).filter (·.stop ≤ position) = [] ∧
      (edit :: edits).filter (position < ·.stop) = edit :: edits := by
  have late : ∀ other ∈ edit :: edits, position < other.stop := by
    intro other member
    rcases List.mem_cons.1 member with rfl | later
    · exact ends
    · exact Nat.lt_of_lt_of_le ends (chain.2.2.stop_le later)
  constructor
  · exact List.filter_eq_nil_iff.2 fun other member => by simpa using late other member
  · exact List.filter_eq_self.2 fun other member => by simpa using late other member

/-- Edits that make a chain once in order keep apart as they stand. -/
theorem Chain.pairwise_apart {source : Text} {edits : List Edit}
    (chain : Chain source 0 (ordered edits)) : edits.Pairwise Apart :=
  (chain.pairwise.imp .inl).perm (List.mergeSort_perm edits precedes) Apart.symm

/-- Where no edit covers a position, the sweep falls into the edits in front of it and those
behind. -/
theorem Chain.sweep_eq_append {source : Text} {offset position : Nat} {edits : List Edit}
    (chain : Chain source offset edits) (here : Text.isBoundary offset source)
    (there : Text.isBoundary position source) (order : offset ≤ position)
    (clear : ∀ edit ∈ edits, edit.stop ≤ position ∨ position ≤ edit.start) :
    sweep offset (Text.dropBytes offset source) edits =
        sweep offset (Text.slice offset position source) (edits.filter (·.stop ≤ position)) ++
          sweep position (Text.dropBytes position source) (edits.filter (position < ·.stop)) ∧
      Chain source offset (edits.filter (·.stop ≤ position)) ∧
      Chain source position (edits.filter (position < ·.stop)) := by
  induction edits generalizing offset with
  | nil => exact ⟨sweep_pause here there order trivial, trivial, trivial⟩
  | cons edit edits ih =>
      obtain ⟨starts, valid, rest⟩ := chain
      obtain ⟨-, -, stop⟩ := inBounds_iff.1 valid
      have clear' : ∀ other ∈ edits, other.stop ≤ position ∨ position ≤ other.start :=
        fun other member => clear other (by simp [member])
      by_cases done : edit.stop ≤ position
      · obtain ⟨swept, before, after⟩ := ih rest stop done clear'
        have chain : Chain source offset (edit :: edits.filter (·.stop ≤ position)) :=
          ⟨starts, valid, before⟩
        rw [List.filter_cons_of_pos (by simpa using done),
          List.filter_cons_of_neg (by simpa using done)]
        refine ⟨?_, chain, after⟩
        rw [sweep_cons here ⟨starts, valid, rest⟩, swept, sweep_slice_cons here chain done]
        simp only [List.append_assoc]
      · have ahead : position ≤ edit.start := (clear edit (by simp)).resolve_left done
        have chain : Chain source position (edit :: edits) := ⟨ahead, valid, rest⟩
        obtain ⟨none, all⟩ := chain.filter_of_lt_stop (Nat.lt_of_not_le done)
        rw [none, all]
        exact ⟨sweep_pause here there order chain, trivial, chain⟩

/-- A span that no edit touches is copied between the edits in front of it and those behind. -/
theorem Chain.sweep_around {source : Text} {offset : Nat} {span : Span} {edits : List Edit}
    (chain : Chain source offset edits) (here : Text.isBoundary offset source)
    (start : Text.isBoundary span.start source) (stop : Text.isBoundary span.stop source)
    (before : offset ≤ span.start) (order : span.start ≤ span.stop)
    (clear : ∀ edit ∈ edits, edit.stop ≤ span.start ∨ span.stop ≤ edit.start) :
    sweep offset (Text.dropBytes offset source) edits =
        sweep offset (Text.slice offset span.start source)
            (edits.filter (·.stop ≤ span.start)) ++ span.slice source ++
          sweep span.stop (Text.dropBytes span.stop source) (edits.filter (span.start < ·.stop)) ∧
      Chain source offset (edits.filter (·.stop ≤ span.start)) ∧
      Chain source span.stop (edits.filter (span.start < ·.stop)) := by
  have clearStart : ∀ edit ∈ edits, edit.stop ≤ span.start ∨ span.start ≤ edit.start :=
    fun edit member => (clear edit member).imp_right (Nat.le_trans order)
  obtain ⟨swept, early, late⟩ := chain.sweep_eq_append here start before clearStart
  have behind : Chain source span.stop (edits.filter (span.start < ·.stop)) := by
    refine late.of_le_start fun edit member => ?_
    obtain ⟨member, ends⟩ := List.mem_filter.1 member
    have : span.start < edit.stop := by simpa using ends
    exact (clear edit member).resolve_left (by omega)
  rw [sweep_pause start stop order behind, ← List.append_assoc] at swept
  exact ⟨swept, early, behind⟩

/-- The size of a swept part of the source. -/
theorem Chain.byteSize_sweep_slice {source : Text} {offset position : Nat} {edits : List Edit}
    (chain : Chain source offset edits) (here : Text.isBoundary offset source)
    (there : Text.isBoundary position source) (order : offset ≤ position)
    (before : ∀ edit ∈ edits, edit.stop ≤ position) :
    offset + (sweep offset (Text.slice offset position source) edits).byteSize + removed edits =
      position + written edits := by
  induction edits generalizing offset with
  | nil =>
      simp only [sweep, Text.byteSize_slice here there order, removed, written, List.map_nil,
        List.sum_nil]
      omega
  | cons edit edits ih =>
      obtain ⟨starts, valid, rest⟩ := chain
      obtain ⟨order', start, stop⟩ := inBounds_iff.1 valid
      have done := before edit (by simp)
      have size := ih rest stop done fun other member => before other (by simp [member])
      rw [sweep_slice_cons here ⟨starts, valid, rest⟩ done]
      simp only [removed, written, List.map_cons, List.sum_cons, Text.byteSize_append,
        Text.byteSize_slice here start starts] at size ⊢
      omega

section Mapped

variable {source : Text} {edits : List Edit} (valid : ∀ edit ∈ edits, edit.inBounds source)
  (apart : edits.Pairwise Apart)

include valid apart

/-- Edits that keep apart remove no more than there is in front of an offset. -/
theorem removed_filter_le (position : Nat) :
    removed (edits.filter (·.stop ≤ position)) ≤ position := by
  have chain : Chain source 0 (ordered (edits.filter (·.stop ≤ position))) :=
    chain_ordered (fun edit member => valid edit (List.mem_filter.1 member).1)
      (apart.sublist List.filter_sublist)
  have bound := chain.add_removed_le (Nat.zero_le position) fun edit member => by
    simpa using (List.mem_filter.1 (mem_ordered.1 member)).2
  rw [ordered, removed_eq_of_perm (List.mergeSort_perm _ precedes)] at bound
  omega

theorem mapOffset?_eq_some (position : Nat) :
    mapOffset? edits position =
      some (position + written (edits.filter (·.stop ≤ position)) -
        removed (edits.filter (·.stop ≤ position))) :=
  foldlM_shift?
    (fun edit member => (inBounds_iff.1 (valid edit (List.mem_filter.1 member).1)).1)
    (removed_filter_le valid apart position)

/-- A span that no edit touches is kept, and its start is mapped to where it lies then. -/
theorem exists_apply_eq_append {span : Span} (start : Text.isBoundary span.start source)
    (stop : Text.isBoundary span.stop source) (order : span.start ≤ span.stop)
    (clear : ∀ edit ∈ edits, edit.stop ≤ span.start ∨ span.stop ≤ edit.start) :
    ∃ front back, apply source edits = .ok (front ++ span.slice source ++ back) ∧
      mapOffset? edits span.start = some front.byteSize := by
  have chain := chain_ordered valid apart
  obtain ⟨swept, early, -⟩ := chain.sweep_around (Text.isBoundary_zero source) start stop
    (Nat.zero_le _) order fun edit member => clear edit (mem_ordered.1 member)
  have size := early.byteSize_sweep_slice (Text.isBoundary_zero source) start (Nat.zero_le _)
    fun edit member => by simpa using (List.mem_filter.1 member).2
  rw [Text.dropBytes_zero] at swept
  refine ⟨_, _, apply_eq_ok_iff.2 ⟨chain, swept⟩, ?_⟩
  have perm : ((ordered edits).filter (·.stop ≤ span.start)).Perm
      (edits.filter (·.stop ≤ span.start)) := (List.mergeSort_perm edits precedes).filter _
  rw [removed_eq_of_perm perm, written_eq_of_perm perm] at size
  rw [mapOffset?_eq_some valid apart]
  congr 1
  omega

end Mapped

end Edit

end TagLift
