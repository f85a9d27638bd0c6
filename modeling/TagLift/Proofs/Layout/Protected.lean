import TagLift.Layout.Normalize
import TagLift.Proofs.Text.Offset

/-!
# Protected spans

A text is normalized around its protected spans exactly if none of them, as far as it lies in the
text and behind the one before, cuts a character.
-/

namespace TagLift

namespace Layout

/-- The protected spans of a text of some size, each as far as it lies in the text and behind the
one before. -/
def clipAll (size : Nat) : Nat → List Span → List Span
  | _, [] => []
  | offset, span :: spans =>
      let kept := clip offset size span
      kept :: clipAll size kept.stop spans

/-- A span that cuts no character of a text. -/
def Uncut (text : Text) (span : Span) : Prop :=
  Text.isBoundary span.start text ∧ Text.isBoundary span.stop text

instance (text : Text) (span : Span) : Decidable (Uncut text span) :=
  inferInstanceAs (Decidable (_ ∧ _))

theorem clip_bounds {offset size : Nat} (order : offset ≤ size) (span : Span) :
    offset ≤ (clip offset size span).start ∧
      (clip offset size span).start ≤ (clip offset size span).stop ∧
      (clip offset size span).stop ≤ size := by
  simp only [clip]
  omega

/-- Spans that follow each other are cut off at the end of the text only. -/
theorem clipAll_eq_map {size offset : Nat} {spans : List Span}
    (ordered : spans.Pairwise fun a b => a.stop ≤ b.start)
    (bounds : ∀ span ∈ spans, span.start ≤ span.stop)
    (behind : ∀ span ∈ spans, offset ≤ span.start) :
    clipAll size offset spans = spans.map (clip 0 size) := by
  induction spans generalizing offset with
  | nil => rfl
  | cons span spans ih =>
      obtain ⟨after, ordered⟩ := List.pairwise_cons.1 ordered
      have here := behind span (by simp)
      have order := bounds span (by simp)
      have same : clip offset size span = clip 0 size span := by
        simp only [clip, Nat.max_eq_left here, Nat.max_zero]
      have stops : (clip 0 size span).stop ≤ span.stop := by
        simp only [clip]
        omega
      rw [clipAll, same, List.map_cons,
        ih ordered (fun other member => bounds other (by simp [member]))
          fun other member => Nat.le_trans stops (after other member)]

/-- Normalizing succeeds exactly if no protected span cuts a character. -/
theorem isSome_normalizeFrom?_iff {newline text : Text} {offset : Nat} {spans : List Span}
    (here : Text.isBoundary offset text) :
    (normalizeFrom? newline offset (Text.dropBytes offset text) spans).isSome ↔
      ∀ span ∈ clipAll text.byteSize offset spans, Uncut text span := by
  induction spans generalizing offset with
  | nil => simp [normalizeFrom?, clipAll]
  | cons span spans ih =>
      have size := Text.byteSize_dropBytes here
      obtain ⟨lower, order, upper⟩ :=
        clip_bounds (Text.le_byteSize_of_isBoundary here) span
      simp only [normalizeFrom?, clipAll, size, List.forall_mem_cons]
      generalize clip offset text.byteSize span = kept at lower order upper
      have start : Text.isBoundary (kept.start - offset) (Text.dropBytes offset text) =
          Text.isBoundary kept.start text := by
        rw [Bool.eq_iff_iff, Text.isBoundary_dropBytes here, Nat.add_sub_cancel' lower]
      rw [Text.dropBytes_dropBytes here, Nat.add_sub_cancel' lower, start]
      cases first : Text.isBoundary kept.start text with
      | false => simp [Uncut, first]
      | true =>
          have stop : Text.isBoundary (kept.stop - kept.start) (Text.dropBytes kept.start text) =
              Text.isBoundary kept.stop text := by
            rw [Bool.eq_iff_iff, Text.isBoundary_dropBytes first, Nat.add_sub_cancel' order]
          rw [Text.dropBytes_dropBytes first, Nat.add_sub_cancel' order, stop]
          cases last : Text.isBoundary kept.stop text with
          | false => simp [Uncut, last]
          | true => simp [Uncut, first, last, ih last]

theorem isSome_normalize?_iff {newline text : Text} {spans : List Span} :
    (normalize? newline spans text).isSome ↔
      ∀ span ∈ clipAll text.byteSize 0 spans, Uncut text span := by
  rw [← isSome_normalizeFrom?_iff (Text.isBoundary_zero text), Text.dropBytes_zero]
  rfl

/-- A span that cuts no character is clipped to one. -/
theorem uncut_clip {text : Text} {offset : Nat} {span : Span} (here : Text.isBoundary offset text)
    (uncut : Uncut text span) : Uncut text (clip offset text.byteSize span) := by
  have least {a b : Nat} (first : Text.isBoundary a text) (second : Text.isBoundary b text) :
      Text.isBoundary (min a b) text := by
    rw [Nat.min_def]
    split
    · exact first
    · exact second
  have greatest {a b : Nat} (first : Text.isBoundary a text) (second : Text.isBoundary b text) :
      Text.isBoundary (max a b) text := by
    rw [Nat.max_def]
    split
    · exact second
    · exact first
  have start := least (greatest uncut.1 here) (Text.isBoundary_byteSize text)
  exact ⟨start, least (greatest uncut.2 start) (Text.isBoundary_byteSize text)⟩

theorem uncut_clipAll {text : Text} {offset : Nat} {spans : List Span}
    (here : Text.isBoundary offset text) (uncut : ∀ span ∈ spans, Uncut text span) :
    ∀ span ∈ clipAll text.byteSize offset spans, Uncut text span := by
  induction spans generalizing offset with
  | nil => simp [clipAll]
  | cons span spans ih =>
      have kept := uncut_clip here (uncut span (by simp))
      rw [clipAll, List.forall_mem_cons]
      exact ⟨kept, ih kept.2 fun other member => uncut other (by simp [member])⟩

end Layout

end TagLift
