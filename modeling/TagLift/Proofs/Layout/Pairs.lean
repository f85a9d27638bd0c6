import TagLift.Proofs.Edit.Sweep
import TagLift.Proofs.Layout.Normalize
import TagLift.Proofs.Text.Paired

/-!
# Edits and layout keep line ends paired

A paired source stays paired if every edit writes a paired text and has no line feed right behind
it. Normal layout with paired line ends keeps the pairs of any text, also where a protected span
cuts a pair in two.
-/

namespace TagLift

/-! ## Applying edits -/

namespace Edit

/-- An edit writes a paired text, and the source has no line feed right behind the edit. -/
structure KeepsPairs (source : Text) (edit : Edit) : Prop where
  text : edit.text.Paired
  behind : (Text.dropBytes edit.stop source).head? ≠ some '\n'

variable {source : Text} {edits : List Edit}

theorem paired_sweep {offset : Nat} (paired : source.Paired)
    (starts : (Text.dropBytes offset source).head? ≠ some '\n')
    (boundary : Text.isBoundary offset source) (chain : Chain source offset edits)
    (each : ∀ edit ∈ edits, edit.KeepsPairs source) :
    (sweep offset (Text.dropBytes offset source) edits).Paired := by
  -- The source is copied from behind one edit to the next, so every copied part starts right.
  induction edits generalizing offset with
  | nil =>
      have part : Text.dropBytes offset source <:+: source :=
        ⟨Text.takeBytes offset source, [], by simp⟩
      exact paired.part part starts
  | cons edit edits ih =>
      obtain ⟨here, later⟩ := List.forall_mem_cons.1 each
      rw [sweep_cons boundary chain]
      have stops := (inBounds_iff.1 chain.2.1).2.2
      exact ((paired.slice starts).append here.text).append
        (ih here.behind stops chain.2.2 later)

theorem paired_apply {text : Text} (paired : source.Paired)
    (each : ∀ edit ∈ edits, edit.KeepsPairs source) (applied : apply source edits = .ok text) :
    text.Paired := by
  obtain ⟨chain, rfl⟩ := apply_eq_ok_iff.1 applied
  have starts : (Text.dropBytes 0 source).head? ≠ some '\n' :=
    paired.head?_dropBytes_ne (by simp [Text.SplitsLineEnd])
  have swept := paired_sweep paired starts (Text.isBoundary_zero source) chain
    fun edit member => each edit (mem_ordered.1 member)
  rwa [Text.dropBytes_zero] at swept

end Edit

/-! ## Normal layout -/

namespace Layout

theorem returnAfter_lineEnds {text : Text} (filled : lineEnds text ≠ []) (afterReturn : Bool) :
    Text.returnAfter afterReturn (lineEnds text).flatten = false := by
  fun_induction lineEnds text generalizing afterReturn with
  | case1 rest ih | case2 rest ih =>
      cases more : lineEnds rest with
      | nil => rfl
      | cons first others =>
          rw [List.flatten_cons, Text.returnAfter_append, ← more]
          exact ih (by simp [more]) _
  | case3 => exact absurd rfl filled

theorem blankRun_keepsPairs :
    blankRun.Replaces Text.KeepsPairs (Template.expand ['\r', '\n', '\r', '\n']) := by
  intro text found read
  obtain ⟨nonempty, front, -⟩ := blankRun_keepsBare (.inr rfl) text found read
  obtain ⟨rfl, filled⟩ := blankRun_eq_some read
  refine ⟨nonempty, front, fun afterReturn => ⟨fun _ => rfl, ?_⟩⟩
  rw [returnAfter_lineEnds filled]
  rfl

theorem useThenDeclaration_keepsPairs : useThenDeclaration.Replaces Text.KeepsPairs
    (Template.expand ("${1}".toList ++ ['\r', '\n'] ++ ['\r', '\n'] ++ "${2}".toList)) := by
  intro text found read
  obtain ⟨useLine, between, start, back, rfl, filled, -, starts, whole⟩ :=
    useThenDeclaration_eq_some read
  refine ⟨by simp [filled], ⟨back, whole⟩, fun afterReturn => ?_⟩
  rw [expand_separator (.inr rfl)]
  constructor
  · intro paired
    simp only [Text.pairedFrom_append, Bool.and_eq_true] at paired ⊢
    refine ⟨⟨⟨paired.1.1, rfl⟩, rfl⟩, ?_⟩
    rcases starts with rfl | rfl <;> rfl
  · simp only [Text.returnAfter_append]
    rcases starts with rfl | rfl <;> rfl

theorem emptyDocEnd_keepsPairs :
    emptyDocEnd.Replaces Text.KeepsPairs fun _ => " */".toList := by
  intro text found read
  obtain ⟨gap, back, rfl, -, whole⟩ := emptyDocEnd_eq_some read
  refine ⟨by simp, ⟨back, whole⟩, fun afterReturn => ⟨fun _ => rfl, ?_⟩⟩
  rw [Text.returnAfter_append]
  rfl

theorem keepsPairs_normalizeSegment (text : Text) :
    Text.KeepsPairs text (normalizeSegment ['\r', '\n'] text) := by
  have congruence := Text.congruence_keepsPairs
  have collapsed := blankRun_keepsPairs.rel_replaceAll congruence text
  have separated := useThenDeclaration_keepsPairs.rel_replaceAll congruence
    (collapseBlankLines ['\r', '\n'] text)
  exact congruence.trans (congruence.trans collapsed separated)
    (emptyDocEnd_keepsPairs.rel_replaceAll congruence _)

/-- Normal layout keeps a text paired, whatever is protected. -/
theorem paired_normalize? {text normal : Text} {spans : List Span} (paired : text.Paired)
    (done : normalize? ['\r', '\n'] spans text = some normal) : normal.Paired :=
  (rel_normalizeFrom? Text.congruence_keepsPairs keepsPairs_normalizeSegment done).paired paired

end Layout

end TagLift
