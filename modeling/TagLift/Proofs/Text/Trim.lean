import TagLift.Text.Basic
import Mathlib.Data.List.Basic
import Mathlib.Data.List.TakeWhile

/-!
# Trimming and words

A text that neither starts nor ends with white space is not changed by trimming. A text without
white space is one word, and white space between two texts keeps their words apart.
-/

namespace TagLift

namespace Text

/-- No character of a text passes a test; for closed texts this is computed. -/
theorem forall_mem_of_all {p : Char → Bool} {text : Text} (fails : text.all (!p ·)) :
    ∀ c ∈ text, p c = false := by
  simpa using fails

theorem dropWhile_eq_self {p : Char → Bool} {text : Text}
    (stays : ∀ c ∈ text.head?, p c = false) : text.dropWhile p = text := by
  cases text with
  | nil => rfl
  | cons c rest =>
      refine List.dropWhile_cons_of_neg ?_
      simp [stays c (by simp)]

theorem dropWhile_beq_eq_self {c : Char} {text : Text} (start : text.head? ≠ some c) :
    text.dropWhile (· == c) = text :=
  dropWhile_eq_self fun _ head => beq_eq_false_iff_ne.2 fun same => start (same ▸ head)

theorem dropEndWhile_eq_self {p : Char → Bool} {text : Text}
    (stays : ∀ c ∈ text.getLast?, p c = false) : dropEndWhile p text = text := by
  rcases text.eq_nil_or_concat with rfl | ⟨front, last, rfl⟩
  · rfl
  · rw [List.concat_eq_append] at stays ⊢
    simp [dropEndWhile, stays last (by simp)]

/-- Dropping from the end stops at the latest at a character that stays. -/
theorem dropEndWhile_append {p : Char → Bool} {front : Text}
    (stays : ∀ c ∈ front.getLast?, p c = false) (back : Text) :
    dropEndWhile p (front ++ back) = front ++ dropEndWhile p back := by
  have kept : front.reverse.dropWhile p = front.reverse :=
    dropWhile_eq_self (by simpa using stays)
  rw [dropEndWhile, List.reverse_append, List.dropWhile_append]
  split
  next nothing => simp [dropEndWhile, kept, List.isEmpty_iff.1 nothing]
  · simp [dropEndWhile]

theorem dropEndWhile_append_of_all {p : Char → Bool} {back : Text} (all : ∀ c ∈ back, p c)
    (front : Text) : dropEndWhile p (front ++ back) = dropEndWhile p front := by
  have all' : ∀ c ∈ back.reverse, p c := fun c member => all c (List.mem_reverse.1 member)
  rw [dropEndWhile, List.reverse_append, List.dropWhile_append_of_pos all', dropEndWhile]

/-- What is dropped from the end passes the test. -/
theorem exists_eq_dropEndWhile_append (p : Char → Bool) (text : Text) :
    ∃ back, text = dropEndWhile p text ++ back ∧ ∀ c ∈ back, p c := by
  refine ⟨(text.reverse.takeWhile p).reverse, ?_, ?_⟩
  · rw [dropEndWhile, ← List.reverse_append, List.takeWhile_append_dropWhile, List.reverse_reverse]
  · exact fun c member => List.mem_takeWhile_imp (List.mem_reverse.1 member)

/-- The last character that is left fails the test. -/
theorem getLast?_dropEndWhile {p : Char → Bool} {text : Text} :
    ∀ c ∈ (dropEndWhile p text).getLast?, p c = false := by
  intro c last
  rw [dropEndWhile, List.getLast?_reverse] at last
  have fails := List.head?_dropWhile_not p text.reverse
  rwa [show (text.reverse.dropWhile p).head? = some c from last] at fails

/-- A character that stands alone at the end is all that is dropped. -/
theorem dropEndWhile_beq_concat {c : Char} {text : Text} (stop : text.getLast? ≠ some c) :
    dropEndWhile (· == c) (text ++ [c]) = text := by
  have dropped : dropEndWhile (· == c) (text ++ [c]) = dropEndWhile (· == c) text := by
    simp [dropEndWhile]
  rw [dropped]
  exact dropEndWhile_eq_self fun _ last => beq_eq_false_iff_ne.2 fun same => stop (same ▸ last)

theorem trimStart_cons {c : Char} (blank : isBlank c) (text : Text) :
    trimStart (c :: text) = trimStart text :=
  List.dropWhile_cons_of_pos blank

theorem trimStart_eq_self {text : Text} (solid : ∀ c ∈ text.head?, isBlank c = false) :
    trimStart text = text :=
  dropWhile_eq_self solid

theorem trim_cons {c : Char} (blank : isBlank c) (text : Text) : trim (c :: text) = trim text := by
  rw [trim, trim, trimStart_cons blank]

theorem trimEnd_concat {c : Char} (solid : isBlank c = false) (text : Text) :
    trimEnd (text ++ [c]) = text ++ [c] := by
  refine dropEndWhile_eq_self fun last isLast => ?_
  rw [List.getLast?_concat] at isLast
  exact Option.some.inj isLast ▸ solid

/-! ## White space at the ends -/

section Blank

variable {blank : Text} (isBlank : blank.isAllBlank)

include isBlank

theorem trimStart_blank_append (text : Text) : trimStart (blank ++ text) = trimStart text :=
  List.dropWhile_append_of_pos (List.all_eq_true.1 isBlank)

theorem trimEnd_append_blank (text : Text) : trimEnd (text ++ blank) = trimEnd text :=
  dropEndWhile_append_of_all (List.all_eq_true.1 isBlank) text

theorem trim_blank_append (text : Text) : trim (blank ++ text) = trim text := by
  rw [trim, trim, trimStart_blank_append isBlank]

theorem trim_append_blank (text : Text) : trim (text ++ blank) = trim text := by
  rw [trim, trim, trimStart, List.dropWhile_append]
  split
  next nothing =>
    have gone : blank.dropWhile TagLift.isBlank = [] :=
      List.dropWhile_eq_nil_iff.2 (List.all_eq_true.1 isBlank)
    rw [gone, trimStart, List.isEmpty_iff.1 nothing]
  · exact trimEnd_append_blank isBlank _

end Blank

/-- A text that neither starts nor ends with white space. -/
structure Tight (text : Text) : Prop where
  start : ∀ c ∈ text.head?, isBlank c = false
  stop : ∀ c ∈ text.getLast?, isBlank c = false

namespace Tight

variable {text : Text}

theorem trimEnd (tight : Tight text) : Text.trimEnd text = text :=
  dropEndWhile_eq_self tight.stop

theorem trim (tight : Tight text) : Text.trim text = text := by
  rw [Text.trim, trimStart_eq_self tight.start, tight.trimEnd]

theorem of_solid (solid : ∀ c ∈ text, isBlank c = false) : Tight text where
  start c first := solid c (List.mem_of_mem_head? first)
  stop c last := solid c (List.mem_of_getLast? last)

/-- Whatever stands between two tight texts, together they are tight. -/
theorem append {left right : Text} (first : Tight left) (second : Tight right)
    (nonempty : left ≠ []) (nonempty' : right ≠ []) (middle : Text) :
    Tight (left ++ middle ++ right) where
  start c head := by
    rw [List.append_assoc, List.head?_append_of_ne_nil _ nonempty] at head
    exact first.start c head
  stop c last := by
    rw [List.getLast?_append_of_ne_nil _ nonempty'] at last
    exact second.stop c last

end Tight

/-! ## Words -/

/-- White space between two texts keeps their words apart. -/
theorem words_append_cons {c : Char} (blank : isBlank c) (left right : Text) :
    words (left ++ c :: right) = words left ++ words right := by
  rw [words, List.splitOnP_append_cons left right blank, List.filter_append]
  rfl

theorem words_blank_append {blank : Text} (isBlank : blank.isAllBlank) (text : Text) :
    words (blank ++ text) = words text := by
  induction blank with
  | nil => rfl
  | cons c rest ih =>
      simp only [isAllBlank, List.all_cons, Bool.and_eq_true] at isBlank
      exact (words_append_cons isBlank.1 [] (rest ++ text)).trans (ih isBlank.2)

theorem words_append_gap {gap : Text} (nonempty : gap ≠ []) (isBlank : gap.isAllBlank)
    (left right : Text) : words (left ++ (gap ++ right)) = words left ++ words right := by
  obtain ⟨c, rest, rfl⟩ := List.exists_cons_of_ne_nil nonempty
  simp only [isAllBlank, List.all_cons, Bool.and_eq_true] at isBlank
  rw [List.cons_append, words_append_cons isBlank.1, words_blank_append isBlank.2]

theorem words_of_solid {word : Text} (nonempty : word ≠ [])
    (solid : ∀ c ∈ word, isBlank c = false) : words word = [word] := by
  rw [words, List.splitOnP_eq_singleton solid]
  simp [nonempty]

end Text

end TagLift
