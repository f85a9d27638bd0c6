import TagLift.Text.Occurrence

/-!
# Texts changed piece by piece

A change made to the pieces of a text is followed by a relation between the old and the new text
that holds of equal texts, composes, and passes through concatenation. To have it for all
occurrences of a form replaced, it is enough to have it for each occurrence.
-/

namespace TagLift

/-- A relation of an old and a new text that can be shown piece by piece. -/
structure Text.Congruence (rel : Text → Text → Prop) : Prop where
  refl : ∀ text, rel text text
  trans : ∀ {first second third : Text}, rel first second → rel second third → rel first third
  append : ∀ {left left' right right' : Text}, rel left left' → rel right right' →
    rel (left ++ right) (left' ++ right')

namespace Form

/-- Every occurrence is read from the front of the text and is related to its replacement. -/
def Replaces (form : Form) (rel : Text → Text → Prop) (replacement : Occurrence → Text) : Prop :=
  ∀ text found, form text = some found →
    found.whole ≠ [] ∧ found.whole <+: text ∧ rel found.whole (replacement found)

/-- A text is related to the one with all occurrences replaced. -/
theorem Replaces.rel_replaceAll {form : Form} {rel : Text → Text → Prop}
    {replacement : Occurrence → Text} (replaces : form.Replaces rel replacement)
    (congruence : Text.Congruence rel) (text : Text) :
    rel text (form.replaceAll replacement text) := by
  -- Behind an occurrence its other characters are skipped, so the claim is about the text from
  -- there on.
  have skipped : ∀ skip, rel (text.drop skip) (form.replaceFrom replacement skip text) := by
    induction text with
    | nil =>
        intro skip
        rw [List.drop_nil, replaceFrom]
        exact congruence.refl []
    | cons c rest ih =>
        intro skip
        cases skip with
        | succ skip => exact ih skip
        | zero =>
            rw [replaceFrom]
            split
            next found read =>
              obtain ⟨nonempty, ⟨back, equal⟩, related⟩ := replaces _ _ read
              obtain ⟨first, others, whole⟩ := List.exists_cons_of_ne_nil nonempty
              rw [List.drop_zero, ← equal]
              apply congruence.append related
              rw [whole, List.cons_append, List.cons.injEq] at equal
              have behind := ih others.length
              rw [← equal.2, List.drop_left] at behind
              rwa [whole, List.length_cons, Nat.add_sub_cancel, ← equal.2]
            next => exact congruence.append (congruence.refl [c]) (ih 0)
  exact skipped 0

end Form

end TagLift
