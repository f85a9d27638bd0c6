import TagLift.Layout.Normalize
import TagLift.Proofs.Text.Bare
import TagLift.Proofs.Text.Offset
import Mathlib.Data.List.Basic
import Mathlib.Data.List.TakeWhile

/-!
# What normal layout keeps

Every pass replaces occurrences by texts that differ in white space and stars only, and protected
spans are copied, so a normalized text has the bare text it had before.
-/

namespace TagLift

theorem newlineOf_cases (source : Text) :
    newlineOf source = ['\n'] ∨ newlineOf source = ['\r', '\n'] := by
  simp only [newlineOf]
  split
  · exact .inr rfl
  · exact .inl rfl

theorem isAllBlank_newlineOf (source : Text) : (newlineOf source).isAllBlank := by
  rcases newlineOf_cases source with equal | equal <;> rw [equal] <;> decide

theorem eq_of_mem_lineIndent {source : Text} {position : Nat} {c : Char}
    (member : c ∈ lineIndent source position) : c = ' ' ∨ c = '\t' := by
  have indents := List.mem_takeWhile_imp member
  simpa using indents

theorem isAllBlank_lineIndent (source : Text) (position : Nat) :
    (lineIndent source position).isAllBlank := by
  rw [Text.isAllBlank, List.all_eq_true]
  intro c member
  rcases eq_of_mem_lineIndent member with rfl | rfl <;> decide

theorem lineEnd?_eq_some {text ending : Text} (read : lineEnd? text = some ending) :
    ending.isAllBlank ∧ ending ≠ [] ∧ ending ++ text.drop ending.length = text := by
  fun_cases lineEnd? text with
  | case1 rest =>
      obtain rfl : ['\r', '\n'] = ending := by simpa [lineEnd?] using read
      exact ⟨by decide, by decide, rfl⟩
  | case2 rest =>
      obtain rfl : ['\n'] = ending := by simpa [lineEnd?] using read
      exact ⟨by decide, by decide, rfl⟩
  | case3 => simp_all [lineEnd?]

/-- The line ends at the front of a text are blank. -/
theorem flatten_lineEnds (text : Text) :
    Text.isAllBlank (lineEnds text).flatten ∧ (lineEnds text).flatten <+: text ∧
      ((lineEnds text).flatten = [] → lineEnds text = []) := by
  fun_induction lineEnds text with
  | case1 rest ih =>
      refine ⟨?_, by simpa using ih.2.1, by simp⟩
      rw [List.flatten_cons, Text.isAllBlank_append, ih.1]
      rfl
  | case2 rest ih =>
      refine ⟨?_, by simpa using ih.2.1, by simp⟩
      rw [List.flatten_cons, Text.isAllBlank_append, ih.1]
      rfl
  | case3 => simp [Text.isAllBlank]

namespace Layout

theorem declarationStart?_prefix {text start : Text} (read : declarationStart? text = some start) :
    start <+: text := by
  rw [declarationStart?] at read
  have front := List.find?_some read
  exact List.isPrefixOf_iff_prefix.1 front

/-- What is so between two protected spans is so of the whole text, because protected spans are
copied. -/
theorem rel_normalizeFrom? {newline : Text} {rel : Text → Text → Prop}
    (congruence : Text.Congruence rel) (segment : ∀ text, rel text (normalizeSegment newline text))
    {offset : Nat} {rest normal : Text} {spans : List Span}
    (done : normalizeFrom? newline offset rest spans = some normal) : rel rest normal := by
  induction spans generalizing offset rest normal with
  | nil =>
      obtain rfl := Option.some.inj done
      exact segment rest
  | cons span spans ih =>
      simp only [normalizeFrom?] at done
      split at done
      · obtain ⟨later, normalized, rfl⟩ := Option.map_eq_some_iff.1 done
        have parts (n m : Nat) : Text.takeBytes n rest ++
            Text.takeBytes m (Text.dropBytes n rest) ++ Text.dropBytes m (Text.dropBytes n rest) =
            rest := by simp [List.append_assoc]
        exact Eq.subst (motive := fun text => rel text _) (parts _ _)
          (congruence.append (congruence.append (segment _) (congruence.refl _)) (ih normalized))
      · contradiction

/-! ## What the forms read -/

theorem blankRun_eq_some {text : Text} {found : Occurrence} (read : blankRun text = some found) :
    found = ⟨(lineEnds text).flatten, []⟩ ∧ lineEnds text ≠ [] := by
  simp only [blankRun] at read
  split at read
  next run =>
    refine ⟨(Option.some.inj read).symm, fun none => ?_⟩
    simp [none] at run
  · contradiction

theorem useThenDeclaration_eq_some {text : Text} {found : Occurrence}
    (read : useThenDeclaration text = some found) :
    ∃ useLine between start back, found = ⟨useLine ++ between ++ start, [useLine, start]⟩ ∧
      useLine ≠ [] ∧ between.isAllBlank ∧ (start = "#[".toList ∨ start = "/**".toList) ∧
      useLine ++ between ++ start ++ back = text := by
  simp only [useThenDeclaration, Option.bind_eq_bind, Option.bind_eq_some_iff] at read
  obtain ⟨before, ended, rest, useWord, read⟩ := read
  split at read
  · contradiction
  next named =>
    simp only [Option.bind_eq_some_iff, pure, Option.some.injEq] at read
    obtain ⟨afterUse, semicolon, between, endedAgain, start, started, rfl⟩ := read
    obtain ⟨-, nonempty, split⟩ := lineEnd?_eq_some ended
    obtain ⟨blank, -, splitAgain⟩ := lineEnd?_eq_some endedAgain
    rw [List.isPrefixOf?_eq_some_iff_append_eq] at useWord semicolon
    obtain ⟨back, close⟩ := declarationStart?_prefix started
    refine ⟨_, between, start, back, rfl, by simp [nonempty], blank, ?_, ?_⟩
    · simpa using List.mem_of_find?_eq_some started
    · simp only [List.append_assoc]
      rw [close, splitAgain, semicolon, List.takeWhile_append_dropWhile, useWord, split]

theorem emptyDocEnd_eq_some {text : Text} {found : Occurrence}
    (read : emptyDocEnd text = some found) :
    ∃ gap back, found = ⟨" *".toList ++ gap ++ "*/".toList, []⟩ ∧ gap.isAllBlank ∧
      " *".toList ++ gap ++ "*/".toList ++ back = text := by
  simp only [emptyDocEnd, Option.bind_eq_bind, Option.bind_eq_some_iff] at read
  obtain ⟨rest, star, read⟩ := read
  split at read
  · contradiction
  next gap =>
    rw [List.isPrefixOf?_eq_some_iff_append_eq] at star
    obtain ⟨back, close⟩ : "*/".toList <+: rest.dropWhile isBlank := by
      simp only [Bool.or_eq_true, not_or, Bool.not_eq_true', Bool.not_eq_false] at gap
      exact List.isPrefixOf_iff_prefix.1 (by simpa using gap.2)
    refine ⟨_, back, (Option.some.inj read).symm, List.all_takeWhile, ?_⟩
    rw [List.append_assoc, List.append_assoc, close, List.takeWhile_append_dropWhile, star]

/-! ## The bare text -/

section Passes

variable {newline : Text} (ending : newline = ['\n'] ∨ newline = ['\r', '\n'])

include ending

theorem blankRun_keepsBare : blankRun.KeepsBare (Template.expand (newline ++ newline)) := by
  intro text found read
  obtain ⟨rfl, filled⟩ := blankRun_eq_some read
  obtain ⟨blank, front, nonempty⟩ := flatten_lineEnds text
  refine ⟨fun empty => filled (nonempty empty), front, ?_⟩
  rw [Text.bare_eq_nil blank]
  rcases ending with rfl | rfl <;> rfl

/-- The template that sets an import apart puts two line ends between its parts. -/
theorem expand_separator (whole first second : Text) :
    Template.expand ("${1}".toList ++ newline ++ newline ++ "${2}".toList)
      ⟨whole, [first, second]⟩ = first ++ newline ++ newline ++ second := by
  have one : Template.number? ['1'] = some 1 := by decide
  have two : Template.number? ['2'] = some 2 := by decide
  rcases ending with rfl | rfl <;>
    simp [Template.expand, Template.expandFrom, Template.resolve, one, two]

theorem useThenDeclaration_keepsBare : useThenDeclaration.KeepsBare
    (Template.expand ("${1}".toList ++ newline ++ newline ++ "${2}".toList)) := by
  intro text found read
  obtain ⟨useLine, between, start, back, rfl, filled, blank, -, whole⟩ :=
    useThenDeclaration_eq_some read
  refine ⟨by simp [filled], ⟨back, whole⟩, ?_⟩
  rw [expand_separator ending]
  have ends : Text.bare newline = [] := by rcases ending with rfl | rfl <;> rfl
  simp only [Text.bare_append, Text.bare_eq_nil blank, ends, List.append_nil]

omit ending in
theorem emptyDocEnd_keepsBare : emptyDocEnd.KeepsBare fun _ => " */".toList := by
  intro text found read
  obtain ⟨gap, back, rfl, blank, whole⟩ := emptyDocEnd_eq_some read
  refine ⟨by simp, ⟨back, whole⟩, ?_⟩
  rw [Text.bare_append, Text.bare_append, Text.bare_eq_nil blank]
  rfl

theorem bare_normalizeSegment (text : Text) :
    Text.bare (normalizeSegment newline text) = Text.bare text := by
  rw [normalizeSegment, tidyDocEnd, emptyDocEnd_keepsBare.bare_replaceAll, separateImports,
    (useThenDeclaration_keepsBare ending).bare_replaceAll, collapseBlankLines,
    (blankRun_keepsBare ending).bare_replaceAll]

/-- Normal layout keeps the bare text. -/
theorem bare_normalizeFrom? {offset : Nat} {rest normal : Text} {spans : List Span}
    (done : normalizeFrom? newline offset rest spans = some normal) :
    Text.bare normal = Text.bare rest :=
  rel_normalizeFrom? Text.congruence_bare (bare_normalizeSegment ending) done

end Passes

end Layout

end TagLift
