import TagLift.Proofs.Text.Congruence

/-!
# Replacing from left to right

Where no occurrence starts, the first character is copied, and else the occurrence is replaced and
the search goes on behind it. These are the only two steps, so what they establish holds of the
whole result. A form occurs in a text if it can be read at some place of it, and replacing changes
nothing where it does not occur.
-/

namespace TagLift

namespace Form

variable {form : Form} {replacement : Occurrence → Text}

/-- Every occurrence is a nonempty front part of the text. -/
def Reads (form : Form) : Prop :=
  ∀ text found, form text = some found → found.whole ≠ [] ∧ found.whole <+: text

/-! ## The two steps -/

@[simp] theorem replaceAll_nil : form.replaceAll replacement [] = [] := rfl

theorem replaceFrom_eq_replaceAll (skip : Nat) (text : Text) :
    form.replaceFrom replacement skip text = form.replaceAll replacement (text.drop skip) := by
  induction text generalizing skip with
  | nil => simp [replaceFrom]
  | cons c rest ih =>
      cases skip with
      | zero => rfl
      | succ skip => exact ih skip

theorem replaceAll_of_none {c : Char} {rest : Text} (unread : form (c :: rest) = none) :
    form.replaceAll replacement (c :: rest) = c :: form.replaceAll replacement rest := by
  rw [replaceAll, replaceFrom, unread]
  rfl

theorem replaceAll_of_some (reads : form.Reads) {found : Occurrence} {back : Text}
    (read : form (found.whole ++ back) = some found) :
    form.replaceAll replacement (found.whole ++ back) =
      replacement found ++ form.replaceAll replacement back := by
  obtain ⟨c, rest, whole⟩ := List.exists_cons_of_ne_nil (reads _ _ read).1
  have behind : (rest ++ back).drop (found.whole.length - 1) = back := by simp [whole]
  rw [whole, List.cons_append] at read ⊢
  rw [replaceAll, replaceFrom, read]
  exact congrArg _ ((replaceFrom_eq_replaceAll _ _).trans (congrArg _ behind))

/-- What holds of the empty text and is kept by copying and by replacing holds of every text and
its result. -/
theorem replaceAll_induction (reads : form.Reads) {motive : Text → Text → Prop}
    (nil : motive [] [])
    (copy : ∀ c rest, form (c :: rest) = none → motive rest (form.replaceAll replacement rest) →
      motive (c :: rest) (c :: form.replaceAll replacement rest))
    (swap : ∀ found back, form (found.whole ++ back) = some found →
      motive back (form.replaceAll replacement back) →
      motive (found.whole ++ back) (replacement found ++ form.replaceAll replacement back))
    (text : Text) : motive text (form.replaceAll replacement text) := by
  induction length : text.length using Nat.strongRecOn generalizing text with
  | ind size ih =>
      cases text with
      | nil => exact nil
      | cons c rest =>
          cases read : form (c :: rest) with
          | none =>
              rw [replaceAll_of_none read]
              exact copy c rest read (ih rest.length (by simp [← length]) rest rfl)
          | some found =>
              obtain ⟨nonempty, back, split⟩ := reads _ _ read
              rw [← split] at read length ⊢
              rw [replaceAll_of_some reads read]
              have shorter : back.length < size := by
                have filled := List.length_pos_iff.2 nonempty
                rw [← length, List.length_append]
                omega
              exact swap found back read (ih back.length shorter back rfl)

/-! ## Where a form occurs -/

@[simp] theorem occursIn_nil : form.occursIn [] = false := rfl

theorem occursIn_cons (c : Char) (rest : Text) :
    form.occursIn (c :: rest) = ((form (c :: rest)).isSome || form.occursIn rest) := by
  rw [occursIn, findAll, findFrom]
  cases form (c :: rest) with
  | none => rfl
  | some found => rfl

theorem occursIn_cons_eq_false {c : Char} {rest : Text} :
    form.occursIn (c :: rest) = false ↔ form (c :: rest) = none ∧ form.occursIn rest = false := by
  rw [occursIn_cons, Bool.or_eq_false_iff, Option.isSome_eq_false_iff, Option.isNone_iff_eq_none]

theorem occursIn_append {back : Text} (occurs : form.occursIn back) (front : Text) :
    form.occursIn (front ++ back) := by
  induction front with
  | nil => exact occurs
  | cons c front ih =>
      rw [List.cons_append, occursIn_cons, ih, Bool.or_true]

/-- A form occurs in a text exactly if it can be read somewhere in it. -/
theorem occursIn_iff (empty : form [] = none) {text : Text} :
    form.occursIn text ↔ ∃ front back, text = front ++ back ∧ (form back).isSome := by
  induction text with
  | nil => simp [empty]
  | cons c rest ih =>
      rw [occursIn_cons, Bool.or_eq_true, ih]
      constructor
      · rintro (here | ⟨front, back, rfl, read⟩)
        · exact ⟨[], c :: rest, rfl, here⟩
        · exact ⟨c :: front, back, rfl, read⟩
      · rintro ⟨_ | ⟨first, front⟩, back, split, read⟩
        · exact .inl (split ▸ read)
        · obtain ⟨rfl, rfl⟩ := List.cons.inj split
          exact .inr ⟨front, back, rfl, read⟩

/-- Every occurrence in a text is read at some place of it. -/
theorem exists_of_mem_findFrom {skip : Nat} {text : Text} {found : Occurrence}
    (member : found ∈ form.findFrom skip text) : ∃ back, form back = some found := by
  induction text generalizing skip with
  | nil => cases member
  | cons c rest ih =>
      cases skip with
      | succ skip => exact ih member
      | zero =>
          rw [findFrom] at member
          split at member
          next first read =>
            rcases List.mem_cons.1 member with rfl | later
            · exact ⟨c :: rest, read⟩
            · exact ih later
          next => exact ih member

/-- Without an occurrence nothing is replaced. -/
theorem replaceAll_eq_self {text : Text} (absent : form.occursIn text = false) :
    form.replaceAll replacement text = text := by
  induction text with
  | nil => rfl
  | cons c rest ih =>
      obtain ⟨unread, later⟩ := occursIn_cons_eq_false.1 absent
      rw [replaceAll_of_none unread, ih later]

end Form

end TagLift
