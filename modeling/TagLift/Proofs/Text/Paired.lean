import TagLift.Proofs.Text.Congruence
import TagLift.Proofs.Text.Offset
import Mathlib.Data.List.Basic

/-!
# Line feeds with a carriage return in front

In a paired text a carriage return stands right in front of every line feed. A scan decides this
with one bit of state, whether the last character was a carriage return. A part of a paired text is
paired unless it starts with a line feed, and so is what is put together from paired texts.
-/

namespace TagLift

namespace Text

/-- Every line feed of a text has a carriage return right in front. -/
def Paired (text : Text) : Prop :=
  ∀ front back, text = front ++ '\n' :: back → front.getLast? = some '\r'

/-! ## The scan -/

/-- Whether every line feed has a carriage return in front, given whether one stands in front of
the text. -/
def pairedFrom : Bool → Text → Bool
  | _, [] => true
  | afterReturn, c :: rest => (c != '\n' || afterReturn) && pairedFrom (c == '\r') rest

/-- Whether a carriage return stands at the end of a text, given whether one stands in front. -/
def returnAfter : Bool → Text → Bool
  | afterReturn, [] => afterReturn
  | _, c :: rest => returnAfter (c == '\r') rest

theorem pairedFrom_append (afterReturn : Bool) (left right : Text) :
    pairedFrom afterReturn (left ++ right) =
      (pairedFrom afterReturn left && pairedFrom (returnAfter afterReturn left) right) := by
  induction left generalizing afterReturn with
  | nil => rfl
  | cons c left ih => simp [pairedFrom, returnAfter, ih, Bool.and_assoc]

theorem returnAfter_append (afterReturn : Bool) (left right : Text) :
    returnAfter afterReturn (left ++ right) = returnAfter (returnAfter afterReturn left) right := by
  induction left generalizing afterReturn with
  | nil => rfl
  | cons c left ih => exact ih _

/-- A carriage return in front does no harm. -/
theorem pairedFrom_of_pairedFrom_false {text : Text} (paired : pairedFrom false text)
    (afterReturn : Bool) : pairedFrom afterReturn text := by
  cases text with
  | nil => rfl
  | cons c rest =>
      rw [pairedFrom, Bool.and_eq_true, Bool.or_false] at paired
      simp [pairedFrom, paired.1, paired.2]

theorem returnAfter_false_iff {text : Text} :
    returnAfter false text ↔ text.getLast? = some '\r' := by
  rcases List.eq_nil_or_concat text with rfl | ⟨front, c, rfl⟩
  · simp [returnAfter]
  · simp [returnAfter_append, returnAfter]

/-- The scan looks at what stands in front of each line feed. -/
theorem pairedFrom_iff {afterReturn : Bool} {text : Text} :
    pairedFrom afterReturn text ↔
      ∀ front back, text = front ++ '\n' :: back → returnAfter afterReturn front := by
  induction text generalizing afterReturn with
  | nil => simp [pairedFrom]
  | cons c rest ih =>
      rw [pairedFrom, Bool.and_eq_true, ih]
      constructor
      · rintro ⟨here, later⟩ front back split
        cases front with
        | nil =>
            obtain ⟨rfl, -⟩ := List.cons.inj split
            simpa [returnAfter] using here
        | cons first front =>
            obtain ⟨rfl, behind⟩ := List.cons.inj split
            exact later front back behind
      · intro all
        constructor
        · by_cases feed : c = '\n'
          · have front := all [] rest (by simp [feed])
            simpa [feed, returnAfter] using front
          · simp [feed]
        · rintro front back rfl
          exact all (c :: front) back rfl

theorem pairedFrom_false_iff {text : Text} : pairedFrom false text ↔ Paired text := by
  rw [pairedFrom_iff]
  exact forall₂_congr fun front back => imp_congr_right fun _ => returnAfter_false_iff

instance (text : Text) : Decidable (Paired text) :=
  decidable_of_iff _ pairedFrom_false_iff

/-! ## Paired parts -/

namespace Paired

theorem nil : Paired [] :=
  pairedFrom_false_iff.1 rfl

theorem append {left right : Text} (first : Paired left) (second : Paired right) :
    Paired (left ++ right) := by
  rw [← pairedFrom_false_iff] at *
  rw [pairedFrom_append, first, pairedFrom_of_pairedFrom_false second]
  rfl

theorem flatMap {α : Type} {items : List α} {write : α → Text}
    (each : ∀ item ∈ items, Paired (write item)) : Paired (items.flatMap write) := by
  induction items with
  | nil => exact nil
  | cons item items ih =>
      obtain ⟨here, later⟩ := List.forall_mem_cons.1 each
      exact here.append (ih later)

theorem of_notMem {text : Text} (absent : '\n' ∉ text) : Paired text := by
  rintro front back rfl
  simp at absent

/-- A part that does not start with a line feed. -/
theorem part {text part : Text} (paired : Paired text) (inside : part <:+: text)
    (starts : part.head? ≠ some '\n') : Paired part := by
  obtain ⟨before, after, rfl⟩ := inside
  rintro front back rfl
  have ended := paired (before ++ front) (back ++ after) (by simp)
  cases front with
  | nil => exact absurd rfl starts
  | cons c front => rwa [List.getLast?_append_of_ne_nil _ (by simp)] at ended

theorem slice {source : Text} {start stop : Nat} (paired : Paired source)
    (starts : (dropBytes start source).head? ≠ some '\n') : Paired (slice start stop source) := by
  have front : Text.slice start stop source <+: dropBytes start source :=
    ⟨_, takeBytes_append_dropBytes (stop - start) (dropBytes start source)⟩
  have inside : Text.slice start stop source <:+: source :=
    front.isInfix.trans ⟨takeBytes start source, [], by simp⟩
  refine paired.part inside fun feed => starts ?_
  obtain ⟨rest, equal⟩ := front
  rw [← equal, List.head?_append, feed]
  rfl

/-- No line feed follows another. -/
theorem head?_ne_of_newline {front rest : Text} (paired : Paired (front ++ '\n' :: rest)) :
    rest.head? ≠ some '\n' := by
  intro again
  obtain ⟨back, rfl⟩ := List.head?_eq_some_iff.1 again
  have ended := paired (front ++ ['\n']) back (by simp)
  simp at ended

end Paired

/-- An offset falls between a carriage return and the line feed after it. -/
def SplitsLineEnd (position : Nat) (source : Text) : Prop :=
  (takeBytes position source).getLast? = some '\r' ∧
    (dropBytes position source).head? = some '\n'

instance (position : Nat) (source : Text) : Decidable (SplitsLineEnd position source) :=
  inferInstanceAs (Decidable (_ ∧ _))

/-- No line feed stands at an offset that does not split a line end. -/
theorem Paired.head?_dropBytes_ne {source : Text} {position : Nat} (paired : Paired source)
    (whole : ¬ SplitsLineEnd position source) :
    (dropBytes position source).head? ≠ some '\n' := by
  intro starts
  obtain ⟨back, equal⟩ := List.head?_eq_some_iff.1 starts
  have ended := paired (takeBytes position source) back
    (by rw [← equal, takeBytes_append_dropBytes])
  exact whole ⟨ended, starts⟩

/-! ## Changes that keep pairs -/

/-- The new text is paired wherever the old one is, and ends alike. -/
def KeepsPairs (old new : Text) : Prop :=
  ∀ afterReturn, (pairedFrom afterReturn old → pairedFrom afterReturn new) ∧
    returnAfter afterReturn new = returnAfter afterReturn old

theorem congruence_keepsPairs : Congruence KeepsPairs where
  refl _ _ := ⟨id, rfl⟩
  trans first second afterReturn :=
    ⟨(second afterReturn).1 ∘ (first afterReturn).1,
      (second afterReturn).2.trans (first afterReturn).2⟩
  append left right afterReturn := by
    obtain ⟨leftPaired, leftEnds⟩ := left afterReturn
    obtain ⟨rightPaired, rightEnds⟩ := right (returnAfter afterReturn _)
    simp only [pairedFrom_append, returnAfter_append, leftEnds, Bool.and_eq_true]
    exact ⟨And.imp leftPaired rightPaired, rightEnds⟩

theorem KeepsPairs.paired {old new : Text} (keeps : KeepsPairs old new) (paired : Paired old) :
    Paired new :=
  pairedFrom_false_iff.1 ((keeps false).1 (pairedFrom_false_iff.2 paired))

end Text

end TagLift
