import TagLift.Proofs.Text.Congruence

/-!
# Bare texts

The bare text is what is left without white space and stars. Replacing the occurrences of a form
keeps it if every single replacement does.
-/

namespace TagLift

namespace Text

/-- Whether a character is neither white space nor a star. -/
def isBare (c : Char) : Bool :=
  !isBlank c && c != '*'

/-- The text without white space and stars. -/
def bare (text : Text) : Text :=
  text.filter isBare

@[simp] theorem bare_nil : bare [] = [] := rfl

@[simp] theorem bare_append (left right : Text) : bare (left ++ right) = bare left ++ bare right :=
  List.filter_append left right

@[simp] theorem isAllBlank_append (left right : Text) :
    isAllBlank (left ++ right) = (isAllBlank left && isAllBlank right) :=
  List.all_append

/-- Nothing is left of white space. -/
theorem bare_eq_nil {text : Text} (blank : text.isAllBlank) : bare text = [] := by
  rw [bare, List.filter_eq_nil_iff]
  intro c member
  simp [isBare, List.all_eq_true.1 blank c member]

theorem congruence_bare : Congruence fun old new => bare new = bare old where
  refl _ := rfl
  trans first second := second.trans first
  append left right := by rw [bare_append, bare_append, left, right]

end Text

namespace Form

/-- Every occurrence is read from the front of the text, and its replacement has the same bare
text. -/
def KeepsBare (form : Form) (replacement : Occurrence → Text) : Prop :=
  ∀ text found, form text = some found →
    found.whole ≠ [] ∧ found.whole <+: text ∧
      Text.bare (replacement found) = Text.bare found.whole

/-- Replacing all occurrences keeps the bare text if every replacement does. -/
theorem KeepsBare.bare_replaceAll {form : Form} {replacement : Occurrence → Text}
    (keeps : form.KeepsBare replacement) (text : Text) :
    Text.bare (form.replaceAll replacement text) = Text.bare text := by
  have replaces : form.Replaces (fun old new => Text.bare new = Text.bare old) replacement := keeps
  exact replaces.rel_replaceAll Text.congruence_bare text

end Form

end TagLift
