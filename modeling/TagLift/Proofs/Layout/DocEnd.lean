import TagLift.Proofs.Layout.Normalize
import TagLift.Proofs.Text.Replacement
import Mathlib.Logic.Function.Iterate

/-!
# Empty lines at the end of a doc comment

An occurrence of the form is the last empty line of a doc comment and the end of the comment. It is
replaced by the end alone, which with an empty line in front is again an occurrence, but the search
has passed that line by then. So a pass drops one line of every run of empty lines, and as many
passes are needed as the longest run has lines.
-/

namespace TagLift

namespace Layout

/-- A text that starts with `n` stars, each with a space in front and white space behind, and the
end of a doc comment. -/
inductive Dangling : Nat → Text → Prop where
  | last {gap : Text} (back : Text) : gap ≠ [] → gap.isAllBlank →
      Dangling 1 (' ' :: '*' :: (gap ++ '*' :: '/' :: back))
  | line {n : Nat} {gap text : Text} : gap.isAllBlank → Dangling n text →
      Dangling (n + 1) (' ' :: '*' :: (gap ++ text))

/-- A run of `n` empty lines at the end of a doc comment somewhere in a text. -/
def HasDangling (n : Nat) (text : Text) : Prop :=
  ∃ front back, text = front ++ back ∧ Dangling n back

/-- A star with a space in front that is not the star of a doc comment's end. -/
def StartsLine (text : Text) : Prop :=
  ∃ rest, text = ' ' :: '*' :: rest ∧ rest.head? ≠ some '/'

theorem startsLine_cons {rest : Text} :
    StartsLine (' ' :: '*' :: rest) ↔ rest.head? ≠ some '/' := by
  constructor
  · rintro ⟨_, ⟨⟩, other⟩
    exact other
  · exact fun other => ⟨rest, rfl, other⟩

theorem Dangling.startsLine {n : Nat} {text : Text} (dangling : Dangling n text) :
    StartsLine text := by
  have blankHead {gap : Text} (nonempty : gap ≠ []) (blank : gap.isAllBlank) (back : Text) :
      (gap ++ back).head? ≠ some '/' := by
    obtain ⟨c, rest, rfl⟩ := List.exists_cons_of_ne_nil nonempty
    rintro ⟨⟩
    exact absurd (List.all_eq_true.1 blank '/' (by simp)) (by decide)
  cases dangling with
  | last back nonempty blank => exact ⟨_, rfl, blankHead nonempty blank _⟩
  | @line _ gap _ blank next =>
      refine ⟨_, rfl, ?_⟩
      by_cases empty : gap = []
      · subst empty
        cases next <;> simp
      · exact blankHead empty blank _

/-! ## What the form reads -/

theorem emptyDocEnd_append {gap : Text} (nonempty : gap ≠ []) (blank : gap.isAllBlank)
    (back : Text) :
    emptyDocEnd (' ' :: '*' :: (gap ++ '*' :: '/' :: back)) =
      some ⟨" *".toList ++ gap ++ "*/".toList, []⟩ := by
  have all := List.all_eq_true.1 blank
  have star : " *".toList.isPrefixOf? (' ' :: '*' :: (gap ++ '*' :: '/' :: back)) =
      some (gap ++ '*' :: '/' :: back) := rfl
  have taken : (gap ++ '*' :: '/' :: back).takeWhile isBlank = gap := by
    rw [List.takeWhile_append_of_pos all, List.takeWhile_cons_of_neg (by decide), List.append_nil]
  have dropped : (gap ++ '*' :: '/' :: back).dropWhile isBlank = '*' :: '/' :: back := by
    rw [List.dropWhile_append_of_pos all, List.dropWhile_cons_of_neg (by decide)]
  have close : "*/".toList.isPrefixOf ('*' :: '/' :: back) = true := rfl
  simp only [emptyDocEnd, star, Option.bind_eq_bind, Option.bind_some, taken, dropped, close]
  simp [nonempty]

theorem dangling_of_emptyDocEnd {text : Text} {found : Occurrence}
    (read : emptyDocEnd text = some found) :
    ∃ gap back : Text, gap ≠ [] ∧ gap.isAllBlank ∧
      text = ' ' :: '*' :: (gap ++ '*' :: '/' :: back) ∧
      found = ⟨" *".toList ++ gap ++ "*/".toList, []⟩ := by
  obtain ⟨gap, back, rfl, blank, whole⟩ := emptyDocEnd_eq_some read
  refine ⟨gap, back, ?_, blank, by simpa using whole.symm, rfl⟩
  rintro rfl
  rw [← whole] at read
  contradiction

theorem isSome_emptyDocEnd {text : Text} : (emptyDocEnd text).isSome ↔ Dangling 1 text := by
  constructor
  · intro read
    obtain ⟨found, read⟩ := Option.isSome_iff_exists.1 read
    obtain ⟨gap, back, nonempty, blank, rfl, -⟩ := dangling_of_emptyDocEnd read
    exact .last back nonempty blank
  · intro dangling
    cases dangling with
    | last back nonempty blank =>
        rw [emptyDocEnd_append nonempty blank]
        rfl
    | line blank next => nomatch next

theorem occursIn_emptyDocEnd {text : Text} :
    emptyDocEnd.occursIn text ↔ HasDangling 1 text := by
  rw [Form.occursIn_iff rfl]
  simp only [isSome_emptyDocEnd]
  rfl

/-- Only a space and a star start an occurrence. -/
theorem emptyDocEnd_eq_none {c : Char} {rest : Text} (other : c ≠ ' ' ∨ rest.head? ≠ some '*') :
    emptyDocEnd (c :: rest) = none := by
  rw [← Option.not_isSome_iff_eq_none, isSome_emptyDocEnd]
  intro dangling
  obtain ⟨behind, equal, -⟩ := dangling.startsLine
  obtain ⟨rfl, rfl⟩ := List.cons.inj equal
  simp at other

/-- An empty line that is not the last one is no occurrence. -/
theorem emptyDocEnd_line {gap text : Text} (blank : gap.isAllBlank) (starts : StartsLine text) :
    emptyDocEnd (' ' :: '*' :: (gap ++ text)) = none := by
  obtain ⟨rest, rfl, other⟩ := starts
  have star : " *".toList.isPrefixOf? (' ' :: '*' :: (gap ++ ' ' :: '*' :: rest)) =
      some (gap ++ ' ' :: '*' :: rest) := rfl
  have dropped : (gap ++ ' ' :: '*' :: rest).dropWhile isBlank = '*' :: rest := by
    rw [List.dropWhile_append_of_pos (List.all_eq_true.1 blank),
      List.dropWhile_cons_of_pos (by decide), List.dropWhile_cons_of_neg (by decide)]
  have unclosed : "*/".toList.isPrefixOf ('*' :: rest) = false := by
    cases rest with
    | nil => rfl
    | cons c rest =>
        have slash : c ≠ '/' := fun same => other (congrArg some same)
        simp [List.isPrefixOf, Ne.symm slash]
  simp only [emptyDocEnd, star, Option.bind_eq_bind, Option.bind_some, dropped, unclosed]
  simp

/-! ## One pass -/

theorem reads_emptyDocEnd : emptyDocEnd.Reads := by
  intro text found read
  obtain ⟨nonempty, front, -⟩ := emptyDocEnd_keepsBare text found read
  exact ⟨nonempty, front⟩

theorem tidyDocEnd_copy {c : Char} {rest : Text} (unread : emptyDocEnd (c :: rest) = none) :
    tidyDocEnd (c :: rest) = c :: tidyDocEnd rest :=
  Form.replaceAll_of_none unread

theorem tidyDocEnd_last {gap : Text} (nonempty : gap ≠ []) (blank : gap.isAllBlank) (back : Text) :
    tidyDocEnd (' ' :: '*' :: (gap ++ '*' :: '/' :: back)) =
      ' ' :: '*' :: '/' :: tidyDocEnd back := by
  have split : ' ' :: '*' :: (gap ++ '*' :: '/' :: back) =
      (" *".toList ++ gap ++ "*/".toList) ++ back := by simp
  let found : Occurrence := ⟨" *".toList ++ gap ++ "*/".toList, []⟩
  have read : emptyDocEnd (found.whole ++ back) = some found :=
    (congrArg emptyDocEnd split.symm).trans (emptyDocEnd_append nonempty blank back)
  rw [split]
  exact Form.replaceAll_of_some reads_emptyDocEnd read

/-- A pass copies a character or replaces the last empty line. -/
theorem tidyDocEnd_induction {motive : Text → Text → Prop} (nil : motive [] [])
    (copy : ∀ c rest, emptyDocEnd (c :: rest) = none → motive rest (tidyDocEnd rest) →
      motive (c :: rest) (c :: tidyDocEnd rest))
    (swap : ∀ gap back : Text, gap ≠ [] → gap.isAllBlank → motive back (tidyDocEnd back) →
      motive (' ' :: '*' :: (gap ++ '*' :: '/' :: back)) (' ' :: '*' :: '/' :: tidyDocEnd back))
    (text : Text) : motive text (tidyDocEnd text) := by
  refine Form.replaceAll_induction reads_emptyDocEnd nil copy ?_ text
  intro found back read later
  obtain ⟨gap, behind, nonempty, blank, split, rfl⟩ := dangling_of_emptyDocEnd read
  change motive _ (_ ++ tidyDocEnd back)
  simpa using swap gap back nonempty blank later

/-- What a result starts with was copied, or is the end of a doc comment. -/
theorem tidyDocEnd_eq_cons {text rest : Text} {c : Char} (tidied : tidyDocEnd text = c :: rest) :
    (∃ others, text = c :: others ∧ emptyDocEnd text = none ∧ tidyDocEnd others = rest) ∨
      Dangling 1 text ∧ c = ' ' ∧ ∃ back, rest = '*' :: '/' :: back := by
  revert tidied
  refine tidyDocEnd_induction (motive := fun text tidied => tidied = c :: rest →
    (∃ others, text = c :: others ∧ emptyDocEnd text = none ∧ tidyDocEnd others = rest) ∨
      Dangling 1 text ∧ c = ' ' ∧ ∃ back, rest = '*' :: '/' :: back) ?_ ?_ ?_ text
  · rintro ⟨⟩
  · rintro first others unread - ⟨⟩
    exact .inl ⟨others, rfl, unread, rfl⟩
  · rintro gap back nonempty blank - ⟨⟩
    exact .inr ⟨.last back nonempty blank, rfl, _, rfl⟩

/-! ## What a pass leaves -/

/-- White space in a result was copied, but for a space that is put in front of the end of a doc
comment. -/
theorem tidyDocEnd_eq_gap_append {text gap rest : Text} (blank : gap.isAllBlank)
    (tidied : tidyDocEnd text = gap ++ rest) :
    (∃ others, text = gap ++ others ∧ tidyDocEnd others = rest) ∨
      rest.head? = some '*' ∧ ∃ front back, gap = front ++ [' '] ∧ text = front ++ back ∧
        Dangling 1 back := by
  induction gap generalizing text with
  | nil => exact .inl ⟨text, rfl, tidied⟩
  | cons c gap ih =>
      have later : Text.isAllBlank gap := by
        rw [Text.isAllBlank, List.all_cons, Bool.and_eq_true] at blank
        exact blank.2
      rcases tidyDocEnd_eq_cons tidied with ⟨others, rfl, -, copied⟩ | ⟨here, rfl, back, close⟩
      · rcases ih later copied with ⟨behind, rfl, equal⟩ | ⟨star, front, back, rfl, rfl, dangling⟩
        · exact .inl ⟨behind, rfl, equal⟩
        · exact .inr ⟨star, c :: front, back, rfl, rfl, dangling⟩
      · cases gap with
        | nil => exact .inr ⟨by simp [show rest = _ from close], [], text, rfl, rfl, here⟩
        | cons first gap =>
            obtain ⟨rfl, -⟩ := List.cons.inj close
            exact absurd (List.all_eq_true.1 later '*' (by simp)) (by decide)

theorem tidyDocEnd_eq_line {text rest : Text} (tidied : tidyDocEnd text = ' ' :: '*' :: rest)
    (other : rest.head? ≠ some '/') :
    ∃ others, text = ' ' :: '*' :: others ∧ emptyDocEnd text = none ∧ tidyDocEnd others = rest := by
  rcases tidyDocEnd_eq_cons tidied with ⟨behind, rfl, unread, copied⟩ | ⟨-, -, back, close⟩
  · rcases tidyDocEnd_eq_cons copied with ⟨others, rfl, -, equal⟩ | ⟨-, space, -⟩
    · exact ⟨others, rfl, unread, equal⟩
    · exact absurd space (by decide)
  · obtain ⟨-, rfl⟩ := List.cons.inj close
    exact absurd rfl other

/-- Where a result starts with empty lines, the text started with one more. -/
theorem Dangling.of_tidyDocEnd {n : Nat} {text : Text} (dangling : Dangling n (tidyDocEnd text)) :
    Dangling (n + 1) text := by
  generalize tidied : tidyDocEnd text = result at dangling
  have other := dangling.startsLine
  induction dangling generalizing text with
  | @last gap back nonempty blank =>
      obtain ⟨behind, rfl, unread, copied⟩ := tidyDocEnd_eq_line tidied (startsLine_cons.1 other)
      rcases tidyDocEnd_eq_gap_append blank copied with
        ⟨others, rfl, close⟩ | ⟨-, front, back, rfl, rfl, last⟩
      · -- The end of the comment would have been read with the line.
        obtain ⟨_, rfl, -, slash⟩ | ⟨-, space, -⟩ := tidyDocEnd_eq_cons close
        · obtain ⟨others, rfl, -, -⟩ | ⟨-, space, -⟩ := tidyDocEnd_eq_cons slash
          · rw [emptyDocEnd_append nonempty blank] at unread
            contradiction
          · exact absurd space (by decide)
        · exact absurd space (by decide)
      · rw [Text.isAllBlank_append, Bool.and_eq_true] at blank
        exact .line blank.1 last
  | @line n gap text blank next ih =>
      obtain ⟨behind, rfl, -, copied⟩ := tidyDocEnd_eq_line tidied (startsLine_cons.1 other)
      rcases tidyDocEnd_eq_gap_append blank copied with ⟨others, rfl, equal⟩ | ⟨star, -⟩
      · exact .line blank (ih equal next.startsLine)
      · obtain ⟨rest, rfl, -⟩ := next.startsLine
        simp at star

/-- A line of a result was a line of the text. -/
theorem exists_of_tidyDocEnd_eq_append {text front line : Text} (starts : StartsLine line)
    (tidied : tidyDocEnd text = front ++ line) :
    ∃ before behind, text = before ++ behind ∧ tidyDocEnd behind = line := by
  revert front
  refine tidyDocEnd_induction (motive := fun text tidied => ∀ {front : Text},
    tidied = front ++ line → ∃ before behind, text = before ++ behind ∧ tidyDocEnd behind = line)
    ?_ ?_ ?_ text
  · intro front equal
    obtain ⟨rest, rfl, -⟩ := starts
    simp at equal
  · intro c rest unread ih front equal
    cases front with
    | nil => exact ⟨[], c :: rest, rfl, (tidyDocEnd_copy unread).trans equal⟩
    | cons first front =>
        obtain ⟨rfl, tails⟩ := List.cons.inj equal
        obtain ⟨before, behind, rfl, copied⟩ := ih tails
        exact ⟨c :: before, behind, rfl, copied⟩
  · intro gap back nonempty blank ih front equal
    obtain ⟨rest, rfl, other⟩ := starts
    -- The end of a doc comment is no line, so the line stands behind it.
    rcases front with _ | ⟨a, _ | ⟨b, _ | ⟨c, front⟩⟩⟩
    · obtain ⟨rfl⟩ : '/' :: tidyDocEnd back = rest := by simpa using equal
      exact absurd rfl other
    · simp at equal
    · simp at equal
    · obtain ⟨before, behind, rfl, copied⟩ := ih (by simpa using (List.cons.inj
        (List.cons.inj (List.cons.inj equal).2).2).2)
      exact ⟨' ' :: '*' :: (gap ++ '*' :: '/' :: before), behind, by simp, copied⟩

/-! ## What a pass drops -/

theorem tidyDocEnd_gap_append {gap line : Text} (blank : gap.isAllBlank)
    (starts : StartsLine line) : tidyDocEnd (gap ++ line) = gap ++ tidyDocEnd line := by
  induction gap with
  | nil => rfl
  | cons c gap ih =>
      have later : Text.isAllBlank gap := by
        rw [Text.isAllBlank, List.all_cons, Bool.and_eq_true] at blank
        exact blank.2
      have star : (gap ++ line).head? ≠ some '*' := by
        cases gap with
        | nil =>
            obtain ⟨rest, rfl, -⟩ := starts
            simp
        | cons first gap =>
            rintro ⟨⟩
            exact absurd (List.all_eq_true.1 later '*' (by simp)) (by decide)
      rw [List.cons_append, tidyDocEnd_copy (emptyDocEnd_eq_none (.inr star)), ih later]
      rfl

/-- An empty line that is not the last one is copied. -/
theorem tidyDocEnd_line {gap line : Text} (blank : gap.isAllBlank) (starts : StartsLine line) :
    tidyDocEnd (' ' :: '*' :: (gap ++ line)) = ' ' :: '*' :: (gap ++ tidyDocEnd line) := by
  rw [tidyDocEnd_copy (emptyDocEnd_line blank starts),
    tidyDocEnd_copy (emptyDocEnd_eq_none (.inl (by decide))), tidyDocEnd_gap_append blank starts]

/-- Where a text starts with empty lines, the result starts with one less. -/
theorem Dangling.tidyDocEnd {n : Nat} {text : Text} (dangling : Dangling (n + 2) text) :
    Dangling (n + 1) (tidyDocEnd text) := by
  induction n generalizing text with
  | zero =>
      obtain _ | @⟨_, gap, _, blank, next⟩ := dangling
      rw [tidyDocEnd_line blank next.startsLine]
      obtain ⟨back, nonempty, last⟩ | ⟨-, nothing⟩ := next
      · rw [tidyDocEnd_last nonempty last]
        have spaced : Text.isAllBlank (gap ++ [' ']) := by
          rw [Text.isAllBlank_append, blank]
          rfl
        simpa using Dangling.last (Layout.tidyDocEnd back) (by simp) spaced
      · nomatch nothing
  | succ n ih =>
      obtain _ | ⟨blank, next⟩ := dangling
      rw [tidyDocEnd_line blank next.startsLine]
      exact .line blank (ih next)

/-- No line starts in the white space in front of the end of a comment or in that end. -/
theorem exists_append_of_line {front rest gap back : Text} (blank : gap.isAllBlank)
    (other : rest.head? ≠ some '/')
    (split : front ++ ' ' :: '*' :: rest = gap ++ '*' :: '/' :: back) :
    ∃ behind, back = behind ++ ' ' :: '*' :: rest := by
  rcases List.append_eq_append_iff.1 split with ⟨excess, rfl, close⟩ | ⟨excess, rfl, close⟩
  · rcases excess with _ | ⟨c, _ | ⟨d, excess⟩⟩
    · simp at close
    · obtain ⟨-, rfl⟩ : ' ' = c ∧ rest = '/' :: back := by simpa using close
      exact absurd rfl other
    · obtain ⟨-, rfl, -⟩ : ' ' = c ∧ '*' = d ∧ rest = excess ++ '*' :: '/' :: back := by
        simpa using close
      exact absurd (List.all_eq_true.1 blank '*' (by simp)) (by decide)
  · rcases excess with _ | ⟨c, _ | ⟨d, excess⟩⟩
    · simp at close
    · simp at close
    · obtain ⟨-, -, found⟩ : '*' = c ∧ '/' = d ∧ back = excess ++ ' ' :: '*' :: rest := by
        simpa using close
      exact ⟨excess, found⟩

/-- What stands in front of a line is tidied by itself. -/
theorem exists_tidyDocEnd_append {line : Text} (starts : StartsLine line) (front : Text) :
    ∃ done, tidyDocEnd (front ++ line) = done ++ tidyDocEnd line := by
  generalize whole : front ++ line = text
  revert front
  refine tidyDocEnd_induction (motive := fun text tidied => ∀ front, front ++ line = text →
    ∃ done, tidied = done ++ tidyDocEnd line) ?_ ?_ ?_ text
  · intro front equal
    obtain ⟨rfl, rfl⟩ := List.append_eq_nil_iff.1 equal
    exact ⟨[], rfl⟩
  · intro c rest unread ih front equal
    cases front with
    | nil =>
        obtain rfl : line = c :: rest := equal
        exact ⟨[], (tidyDocEnd_copy unread).symm⟩
    | cons first front =>
        obtain ⟨rfl, tails⟩ := List.cons.inj equal
        obtain ⟨done, tidied⟩ := ih front tails
        exact ⟨first :: done, congrArg _ tidied⟩
  · intro gap back nonempty blank ih front equal
    rcases front with _ | ⟨a, _ | ⟨b, front⟩⟩
    · obtain rfl : line = _ := equal
      exact ⟨[], (tidyDocEnd_last nonempty blank back).symm⟩
    · obtain ⟨rest, rfl, -⟩ := starts
      simp at equal
    · obtain ⟨rest, rfl, other⟩ := starts
      obtain ⟨-, -, split⟩ : a = ' ' ∧ b = '*' ∧
          front ++ ' ' :: '*' :: rest = gap ++ '*' :: '/' :: back := by simpa using equal
      obtain ⟨behind, rfl⟩ := exists_append_of_line blank other split
      obtain ⟨done, tidied⟩ := ih behind rfl
      exact ⟨' ' :: '*' :: '/' :: done, by rw [tidied]; rfl⟩

/-- A pass drops one line of every run. -/
theorem hasDangling_tidyDocEnd {n : Nat} {text : Text} :
    HasDangling (n + 1) (tidyDocEnd text) ↔ HasDangling (n + 2) text := by
  constructor
  · rintro ⟨front, back, tidied, dangling⟩
    obtain ⟨before, behind, rfl, rfl⟩ :=
      exists_of_tidyDocEnd_eq_append dangling.startsLine tidied
    exact ⟨before, behind, rfl, dangling.of_tidyDocEnd⟩
  · rintro ⟨front, back, rfl, dangling⟩
    obtain ⟨done, tidied⟩ := exists_tidyDocEnd_append dangling.startsLine front
    exact ⟨done, tidyDocEnd back, tidied, dangling.tidyDocEnd⟩

/-! ## Repeated passes -/

theorem hasDangling_iterate {n passes : Nat} {text : Text} :
    HasDangling (n + 1) (tidyDocEnd^[passes] text) ↔ HasDangling (passes + n + 1) text := by
  induction passes generalizing text with
  | zero => rw [Function.iterate_zero_apply, Nat.zero_add]
  | succ passes ih =>
      rw [Function.iterate_succ_apply, ih, hasDangling_tidyDocEnd, Nat.add_right_comm passes 1 n]

/-- A pass makes a text shorter if the form occurs in it. -/
theorem length_tidyDocEnd (text : Text) :
    (tidyDocEnd text).length ≤ text.length ∧
      (emptyDocEnd.occursIn text → (tidyDocEnd text).length < text.length) := by
  refine tidyDocEnd_induction (motive := fun text tidied => tidied.length ≤ text.length ∧
    (emptyDocEnd.occursIn text → tidied.length < text.length)) (by simp) ?_ ?_ text
  · rintro c rest unread ⟨short, shorter⟩
    refine ⟨Nat.succ_le_succ short, fun occurs => Nat.succ_lt_succ (shorter ?_)⟩
    rwa [Form.occursIn_cons, unread, Option.isSome_none, Bool.false_or] at occurs
  · rintro gap back nonempty blank ⟨short, -⟩
    simp only [List.length_cons, List.length_append]
    omega

theorem tidyDocEnd_eq_self_iff {text : Text} : tidyDocEnd text = text ↔ ¬HasDangling 1 text := by
  rw [← occursIn_emptyDocEnd, Bool.not_eq_true]
  constructor
  · intro fixed
    rw [← Bool.not_eq_true]
    intro occurs
    have shorter := (length_tidyDocEnd text).2 occurs
    rw [fixed] at shorter
    exact Nat.lt_irrefl _ shorter
  · exact Form.replaceAll_eq_self

/-- After some passes an empty line is left at the end of a doc comment, and the next pass changes
the text, exactly if some comment ended in a run of more lines than there were passes. So one pass
is enough exactly if no comment ends in two empty lines. -/
theorem tidyDocEnd_iterate_settles (passes : Nat) (text : Text) :
    (emptyDocEnd.occursIn (tidyDocEnd^[passes] text) ↔ HasDangling (passes + 1) text) ∧
    (tidyDocEnd (tidyDocEnd^[passes] text) = tidyDocEnd^[passes] text ↔
      ¬HasDangling (passes + 1) text) := by
  rw [occursIn_emptyDocEnd, tidyDocEnd_eq_self_iff, hasDangling_iterate]
  exact ⟨Iff.rfl, Iff.rfl⟩

/-- Of two empty lines at the end of a doc comment one is left. -/
theorem second_empty_line_left :
    let text := "/**\n * Text\n *\n *\n */".toList
    tidyDocEnd text = "/**\n * Text\n *\n */".toList ∧ emptyDocEnd.occursIn (tidyDocEnd text) ∧
      tidyDocEnd (tidyDocEnd text) = "/**\n * Text\n */".toList := by
  decide +kernel

end Layout

end TagLift
