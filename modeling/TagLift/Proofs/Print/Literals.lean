import TagLift.Proofs.Layout.Protected
import TagLift.Proofs.Print.Preservation
import TagLift.Proofs.Edit.Apart

/-!
# Printing keeps literals

Where no edit reaches into a literal, the edited text is the literals of the source with rewritten
gaps between them. The start of a literal is mapped to where it stands there, so normal layout sees
exactly the gaps, and the printed text is the literals with normal gaps between them.
-/

namespace TagLift

namespace Text

/-- Gaps and kept texts in turn, a gap first and a gap last. -/
def weave : List Text → List Text → Text
  | gap :: gaps, kept :: others => gap ++ kept ++ weave gaps others
  | gap :: _, [] => gap
  | [], _ => []

/-- The spans of the kept texts in a woven text that starts at an offset. -/
def wovenSpans : Nat → List Text → List Text → List Span
  | offset, gap :: gaps, kept :: others =>
      let start := offset + gap.byteSize
      ⟨start, start + kept.byteSize⟩ :: wovenSpans (start + kept.byteSize) gaps others
  | _, _, _ => []

end Text

/-! ## Edits around literals -/

namespace Edit

/-- The rewritten texts in front of each span and behind the last one, for edits in order and a
source from an offset on. An edit belongs to the first gap whose span it does not reach behind. -/
def gaps (source : Text) : Nat → List Edit → List Span → List Text
  | offset, edits, [] => [sweep offset (Text.dropBytes offset source) edits]
  | offset, edits, span :: spans =>
      sweep offset (Text.slice offset span.start source) (edits.filter (·.stop ≤ span.start)) ::
        gaps source span.stop (edits.filter (span.start < ·.stop)) spans

/-- Spans in order from an offset on that cut no character and that no edit reaches into. -/
def Untouched (source : Text) (edits : List Edit) : Nat → List Span → Prop
  | _, [] => True
  | offset, span :: spans =>
      (offset ≤ span.start ∧ span.start ≤ span.stop) ∧ Layout.Uncut source span ∧
        (∀ edit ∈ edits, edit.stop ≤ span.start ∨ span.stop ≤ edit.start) ∧
        Untouched source edits span.stop spans

theorem Untouched.of_pairwise {source : Text} {edits : List Edit} {offset : Nat}
    {spans : List Span} (sorted : spans.Pairwise fun a b => a.stop ≤ b.start)
    (bounds : ∀ span ∈ spans, span.start ≤ span.stop ∧ Layout.Uncut source span)
    (clear : ∀ edit ∈ edits, ∀ span ∈ spans, edit.stop ≤ span.start ∨ span.stop ≤ edit.start)
    (behind : ∀ span ∈ spans, offset ≤ span.start) : Untouched source edits offset spans := by
  induction spans generalizing offset with
  | nil => trivial
  | cons span spans ih =>
      obtain ⟨after, sorted⟩ := List.pairwise_cons.1 sorted
      obtain ⟨order, uncut⟩ := bounds span (by simp)
      refine ⟨⟨behind span (by simp), order⟩, uncut, ?_, ?_⟩
      · intro edit member
        exact clear edit member span (by simp)
      · apply ih sorted _ _ after
        · intro other member
          exact bounds other (by simp [member])
        · intro edit member other inside
          exact clear edit member other (by simp [inside])

theorem Untouched.subset {source : Text} {edits fewer : List Edit} {offset : Nat}
    {spans : List Span} (subset : fewer ⊆ edits) (untouched : Untouched source edits offset spans) :
    Untouched source fewer offset spans := by
  induction spans generalizing offset with
  | nil => trivial
  | cons span spans ih =>
      obtain ⟨order, uncut, clear, rest⟩ := untouched
      exact ⟨order, uncut, fun edit member => clear edit (subset member), ih rest⟩

/-- The edited text is the untouched spans with the gaps between them. -/
theorem sweep_eq_weave {source : Text} {offset : Nat} {edits : List Edit} {spans : List Span}
    (here : Text.isBoundary offset source) (chain : Chain source offset edits)
    (untouched : Untouched source edits offset spans) :
    sweep offset (Text.dropBytes offset source) edits =
      Text.weave (gaps source offset edits spans) (spans.map (·.slice source)) := by
  induction spans generalizing offset edits with
  | nil => rfl
  | cons span spans ih =>
      obtain ⟨⟨behind, order⟩, ⟨start, stop⟩, clear, rest⟩ := untouched
      obtain ⟨swept, -, chain⟩ := chain.sweep_around here start stop behind order clear
      rw [swept, ih stop chain (rest.subset List.filter_sublist.subset)]
      rfl

/-- A measure of the edits that end at or before a position, in two steps. -/
theorem sum_filter_stop_le (measure : Edit → Nat) {first second : Nat} (order : first ≤ second)
    (edits : List Edit) :
    ((edits.filter (·.stop ≤ second)).map measure).sum =
      ((edits.filter (·.stop ≤ first)).map measure).sum +
        (((edits.filter (first < ·.stop)).filter (·.stop ≤ second)).map measure).sum := by
  induction edits with
  | nil => rfl
  | cons edit edits ih =>
      rcases Nat.lt_or_ge first edit.stop with late | early
      · by_cases counts : edit.stop ≤ second
        · simp [late, counts, ih, Nat.not_le.2 late]
          omega
        · simp [late, counts, ih, Nat.not_le.2 late]
      · simp [early, Nat.le_trans early order, ih, Nat.not_lt.2 early]
        omega

/-- Offsets from `offset` on land behind `base` as far as they are from `offset`, but for what the
edits in front of them write and remove. -/
def Lands (landing : Nat → Nat) (offset base : Nat) (edits : List Edit) : Prop :=
  ∀ position, offset ≤ position →
    landing position + removed (edits.filter (·.stop ≤ position)) =
      base + (position - offset) + written (edits.filter (·.stop ≤ position))

/-- Behind an untouched span the count starts anew. -/
theorem Lands.behind {landing : Nat → Nat} {offset base : Nat} {edits : List Edit} {span : Span}
    (lands : Lands landing offset base edits) (before : offset ≤ span.start)
    (order : span.start ≤ span.stop) :
    Lands landing span.stop (landing span.start + (span.stop - span.start))
      (edits.filter (span.start < ·.stop)) := by
  intro position after
  have atStart := lands span.start before
  have atPosition := lands position (by omega)
  have removedSplit := sum_filter_stop_le (fun edit => edit.stop - edit.start)
    (show span.start ≤ position by omega) edits
  have writtenSplit := sum_filter_stop_le (fun edit => edit.text.byteSize)
    (show span.start ≤ position by omega) edits
  simp only [removed, written] at *
  omega

/-- Untouched spans land where their texts stand between the gaps. -/
theorem wovenSpans_gaps {source : Text} {landing : Nat → Nat} {offset base : Nat}
    {edits : List Edit} {spans : List Span} (here : Text.isBoundary offset source)
    (chain : Chain source offset edits) (untouched : Untouched source edits offset spans)
    (lands : Lands landing offset base edits) :
    Text.wovenSpans base (gaps source offset edits spans) (spans.map (·.slice source)) =
      spans.map fun span =>
        ⟨landing span.start, landing span.start + (span.stop - span.start)⟩ := by
  induction spans generalizing offset base edits with
  | nil => rfl
  | cons span spans ih =>
      obtain ⟨⟨behind, order⟩, ⟨start, stop⟩, clear, rest⟩ := untouched
      obtain ⟨-, early, late⟩ := chain.sweep_around here start stop behind order clear
      have size := early.byteSize_sweep_slice here start behind
        fun edit member => by simpa using (List.mem_filter.1 member).2
      have landed := lands span.start behind
      have here' : base + (sweep offset (Text.slice offset span.start source)
          (edits.filter (·.stop ≤ span.start))).byteSize = landing span.start := by
        omega
      have length : (span.slice source).byteSize = span.stop - span.start :=
        Text.byteSize_slice start stop order
      simp only [gaps, List.map_cons, Text.wovenSpans, here', length]
      rw [ih stop late (rest.subset List.filter_sublist.subset) (lands.behind behind order)]

theorem length_gaps (source : Text) (offset : Nat) (edits : List Edit) (spans : List Span) :
    (gaps source offset edits spans).length = spans.length + 1 := by
  induction spans generalizing offset edits with
  | nil => rfl
  | cons span spans ih => simp [gaps, ih]

/-- Edits that can be applied map an offset to where the count puts it. -/
theorem lands_mapOffset? {source : Text} {edits : List Edit}
    (chain : Chain source 0 (ordered edits)) :
    Lands (fun position => (mapOffset? edits position).getD position) 0 0 (ordered edits) := by
  have valid : ∀ edit ∈ edits, edit.inBounds source :=
    fun edit member => chain.inBounds (mem_ordered.2 member)
  have apart := chain.pairwise_apart
  intro position _
  have fits := removed_filter_le valid apart position
  have perm : ((ordered edits).filter (·.stop ≤ position)).Perm
      (edits.filter (·.stop ≤ position)) := (List.mergeSort_perm edits precedes).filter _
  simp only [mapOffset?_eq_some valid apart, Option.getD_some, removed_eq_of_perm perm,
    written_eq_of_perm perm]
  omega

end Edit

/-! ## Normal layout around literals -/

namespace Layout

/-- Normal layout sees the gaps of a woven text and nothing else. -/
theorem normalizeFrom?_weave (newline : Text) (offset : Nat) {gaps kept : List Text}
    (lengths : gaps.length = kept.length + 1) :
    normalizeFrom? newline offset (Text.weave gaps kept) (Text.wovenSpans offset gaps kept) =
      some (Text.weave (gaps.map (normalizeSegment newline)) kept) := by
  induction kept generalizing offset gaps with
  | nil =>
      obtain ⟨gap, rfl⟩ := List.length_eq_one_iff.1 lengths
      rfl
  | cons text kept ih =>
      cases gaps with
      | nil => cases lengths
      | cons gap gaps =>
          have clipped : clip offset
              (offset + Text.byteSize (gap ++ (text ++ Text.weave gaps kept)))
              ⟨offset + gap.byteSize, offset + gap.byteSize + text.byteSize⟩ =
                ⟨offset + gap.byteSize, offset + gap.byteSize + text.byteSize⟩ := by
            simp only [clip, Text.byteSize_append, Span.mk.injEq]
            omega
          simp only [Text.weave, Text.wovenSpans, normalizeFrom?, clipped,
            Nat.add_sub_cancel_left, List.append_assoc, Text.dropBytes_append,
            Text.takeBytes_append, Text.isBoundary_append, Bool.and_self, if_true,
            ih _ (Nat.succ.inj lengths), Option.map_some, List.map_cons]

end Layout

namespace SourceUnit

/-- The structural edits and the blank lines put in with them. -/
def printEdits (source : Text) (old new : SourceUnit) : List Edit :=
  structuralEdits source old new ++ (Print.Page.ofSource source).layoutStmts new.stmts

/-- The text that the edits give and the layout that is normal around the shifted literals. -/
theorem exists_normalize?_of_print_eq_ok {source : Text} {old new : SourceUnit} {printed : Printed}
    (done : print source old new = .ok printed) (edited : structuralEdits source old new ≠ []) :
    ∃ text, Edit.apply source (printEdits source old new) = .ok text ∧
      Layout.normalize? (newlineOf source)
        (old.literals.map (shiftLiteral (printEdits source old new))) text =
          some printed.text := by
  rcases print_eq_ok_cases done with ⟨empty, -⟩ | ⟨text, -, applied, -⟩
  · exact absurd empty edited
  · refine ⟨text, applied, ?_⟩
    rw [print_of_apply_eq_ok rfl applied, if_neg edited] at done
    split at done
    next normal normalized =>
      obtain rfl := Except.ok.inj done
      exact normalized
    next => cases done

/-- Where no edit reaches into a literal, the edited text is the literals of the source with the
rewritten gaps between them, and the printed text is the same with normal layout in each gap. -/
theorem print_keeps_literals {source : Text} {old new : SourceUnit} {printed : Printed}
    (done : print source old new = .ok printed)
    (sorted : old.literals.Pairwise fun a b => a.stop ≤ b.start)
    (bounds : ∀ span ∈ old.literals, span.start ≤ span.stop ∧ Layout.Uncut source span)
    (clear : ∀ edit ∈ printEdits source old new, ∀ span ∈ old.literals,
      edit.stop ≤ span.start ∨ span.stop ≤ edit.start) :
    let gaps := Edit.gaps source 0 (Edit.ordered (printEdits source old new)) old.literals
    let kept := old.literals.map (·.slice source)
    gaps.length = kept.length + 1 ∧
      if structuralEdits source old new = [] then printed.text = source
      else
        Edit.apply source (printEdits source old new) = .ok (Text.weave gaps kept) ∧
          printed.text =
            Text.weave (gaps.map (Layout.normalizeSegment (newlineOf source))) kept := by
  intro gaps kept
  have lengths : gaps.length = kept.length + 1 := by
    simp only [gaps, kept, Edit.length_gaps, List.length_map]
  refine ⟨lengths, ?_⟩
  split
  next empty =>
    have same : print source old new = .ok ⟨source, 0⟩ := by
      simp only [print, empty]
      rfl
    obtain rfl := Except.ok.inj (same.symm.trans done)
    rfl
  next edited =>
    obtain ⟨text, applied, normalized⟩ := exists_normalize?_of_print_eq_ok done edited
    obtain ⟨chain, swept⟩ := Edit.apply_eq_ok_iff.1 applied
    have untouched : Edit.Untouched source (Edit.ordered (printEdits source old new)) 0
        old.literals := by
      refine .of_pairwise sorted bounds ?_ fun _ _ => Nat.zero_le _
      exact fun edit member => clear edit (Edit.mem_ordered.1 member)
    have here := Text.isBoundary_zero source
    have woven : text = Text.weave gaps kept := by
      rw [← swept, ← Edit.sweep_eq_weave here chain untouched, Text.dropBytes_zero]
    have landed : old.literals.map (shiftLiteral (printEdits source old new)) =
        Text.wovenSpans 0 gaps kept :=
      (Edit.wovenSpans_gaps here chain untouched (Edit.lands_mapOffset? chain)).symm
    have normal : Layout.normalize? (newlineOf source) (Text.wovenSpans 0 gaps kept)
        (Text.weave gaps kept) = _ := Layout.normalizeFrom?_weave _ 0 lengths
    rw [landed, woven, normal] at normalized
    exact ⟨woven ▸ applied, (Option.some.inj normalized).symm⟩

/-- A string with a run of line ends stays as it is between a dropped import and a doc comment
that loses a line. -/
theorem print_keeps_literals_multiline :
    ∃ (source : Text) (old new : SourceUnit) (printed : Printed),
      print source old new = .ok printed ∧ printed.edits = 3 ∧
      old.literals.map (·.slice source) = ["'a\n\n\n\nb'".toList] ∧
      (old.literals.Pairwise fun a b => a.stop ≤ b.start) ∧
      (∀ span ∈ old.literals, span.start ≤ span.stop ∧ Layout.Uncut source span) ∧
      (∀ edit ∈ printEdits source old new, ∀ span ∈ old.literals,
        edit.stop ≤ span.start ∨ span.stop ≤ edit.start) ∧
      let gaps := Edit.gaps source 0 (Edit.ordered (printEdits source old new)) old.literals
      let kept := old.literals.map (·.slice source)
      gaps.length = kept.length + 1 ∧
        if structuralEdits source old new = [] then printed.text = source
        else
          Edit.apply source (printEdits source old new) = .ok (Text.weave gaps kept) ∧
            printed.text =
              Text.weave (gaps.map (Layout.normalizeSegment (newlineOf source))) kept := by
  let source :=
    "<?php\nuse A;\n$s = 'a\n\n\n\nb';\n/**\n * @group x\n */\nclass B \x7b\x7d\n".toList
  let old : SourceUnit :=
    ⟨[.uses (some ⟨6, 12⟩) [.ofClass ['A']], .other ⟨13, 27⟩,
      .classLike ⟨.cls, ⟨['B'], ⟨48, 58⟩, 48,
        some ⟨some ⟨28, 47⟩, "/**\n * @group x\n */".toList⟩, []⟩, []⟩], 5, [⟨18, 26⟩]⟩
  let new : SourceUnit :=
    ⟨[.other ⟨13, 27⟩,
      .classLike ⟨.cls, ⟨['B'], ⟨48, 58⟩, 48,
        some ⟨some ⟨28, 47⟩, "/**\n */".toList⟩, [.single ⟨['G'], []⟩]⟩, []⟩], 5, [⟨18, 26⟩]⟩
  have done : print source old new =
      .ok ⟨"<?php\n$s = 'a\n\n\n\nb';\n/**\n */\n#[G]\nclass B \x7b\x7d\n".toList, 3⟩ := by
    rw [print_of_apply_eq_ok rfl (Edit.apply_of_pairwise (by decide +kernel) (by decide +kernel))]
    decide +kernel
  have sorted : old.literals.Pairwise fun a b => a.stop ≤ b.start := by decide
  have bounds : ∀ span ∈ old.literals, span.start ≤ span.stop ∧ Layout.Uncut source span := by
    decide +kernel
  have clear : ∀ edit ∈ printEdits source old new, ∀ span ∈ old.literals,
      edit.stop ≤ span.start ∨ span.stop ≤ edit.start := by
    decide +kernel
  exact ⟨source, old, new, _, done, rfl, by decide +kernel, sorted, bounds, clear,
    print_keeps_literals done sorted bounds clear⟩

end SourceUnit

end TagLift
