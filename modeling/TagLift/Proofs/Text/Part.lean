import TagLift.Proofs.Text.Congruence
import Mathlib.Data.List.Basic

/-!
# Parts of a text

A part that does not hold some character lies on one side of it, and the first place of a character
splits a text in one way only. A change that keeps a property in every context can be made piece by
piece.
-/

namespace TagLift

namespace Text

/-- A front part without a character ends in front of it. -/
theorem isPrefix_of_append_cons {part left right : Text} {c : Char} (absent : c ∉ part)
    (front : part <+: left ++ c :: right) : part <+: left := by
  induction left generalizing part with
  | nil =>
      rcases List.prefix_cons_iff.1 front with rfl | ⟨rest, rfl, -⟩
      · exact List.nil_prefix
      · simp at absent
  | cons first left ih =>
      rcases List.prefix_cons_iff.1 front with rfl | ⟨rest, rfl, starts⟩
      · exact List.nil_prefix
      · have later : c ∉ rest := fun member => absent (List.mem_cons_of_mem _ member)
        exact List.cons_prefix_cons.2 ⟨rfl, ih later starts⟩

/-- A part without a character lies in front of it or behind it. -/
theorem isInfix_append_cons {part left right : Text} {c : Char} (absent : c ∉ part) :
    part <:+: left ++ c :: right ↔ part <:+: left ∨ part <:+: right := by
  constructor
  · intro inside
    induction left with
    | nil =>
        rcases List.infix_cons_iff.1 inside with starts | later
        · have front : part <+: [] := isPrefix_of_append_cons absent starts
          exact .inl front.isInfix
        · exact .inr later
    | cons first left ih =>
        rcases List.infix_cons_iff.1 inside with starts | later
        · have front : part <+: first :: left := isPrefix_of_append_cons absent starts
          exact .inl front.isInfix
        · exact (ih later).imp_left fun inside => List.infix_cons_iff.2 (.inr inside)
  · rintro (inside | inside)
    · exact inside.trans (List.prefix_append left _).isInfix
    · exact inside.trans ⟨left ++ [c], [], by simp⟩

/-- The first place of a character splits a text in one way. -/
theorem append_cons_inj_of_notMem {left right left' right' : Text} {c : Char} (absent : c ∉ left)
    (absent' : c ∉ left') (equal : left ++ c :: right = left' ++ c :: right') :
    left = left' ∧ right = right' := by
  induction left generalizing left' with
  | nil =>
      cases left' with
      | nil => exact ⟨rfl, (List.cons.inj equal).2⟩
      | cons first rest =>
          obtain ⟨rfl, -⟩ := List.cons.inj equal
          simp at absent'
  | cons first rest ih =>
      cases left' with
      | nil =>
          obtain ⟨rfl, -⟩ := List.cons.inj equal
          simp at absent
      | cons first' rest' =>
          obtain ⟨rfl, tails⟩ := List.cons.inj equal
          rw [List.mem_cons, not_or] at absent absent'
          obtain ⟨rfl, rfl⟩ := ih absent.2 absent'.2 tails
          exact ⟨rfl, rfl⟩

/-! ## Changes in a context -/

/-- Whatever stands around the old text, a property of the whole is kept with the new text in its
place. -/
def KeepsIn (good : Text → Prop) (old new : Text) : Prop :=
  ∀ front back, good (front ++ old ++ back) → good (front ++ new ++ back)

theorem congruence_keepsIn (good : Text → Prop) : Congruence (KeepsIn good) where
  refl _ _ _ holds := holds
  trans first second front back holds := second front back (first front back holds)
  append {left left' right right'} first second front back holds := by
    have changed : good (front ++ left' ++ (right ++ back)) :=
      first front (right ++ back) (by simpa using holds)
    simpa using second (front ++ left') back (by simpa using changed)

theorem KeepsIn.keeps {good : Text → Prop} {old new : Text} (keeps : KeepsIn good old new)
    (holds : good old) : good new := by
  simpa using keeps [] [] (by simpa using holds)

end Text

end TagLift
