import TagLift.Text.Basic
import Mathlib.Data.List.Basic
import Mathlib.Data.List.Flatten

/-!
# Splitting a text

The parts between separators hold no separator: no line holds a line feed, and no word holds white
space. Splitting into lines and joining them undo each other.
-/

namespace TagLift

namespace Text

/-- The parts between separators hold no separator. -/
theorem eq_false_of_mem_splitOnP {separates : Char → Bool} {text part : Text}
    (member : part ∈ text.splitOnP separates) : ∀ c ∈ part, separates c = false := by
  induction text generalizing part with
  | nil => simp_all
  | cons first rest ih =>
      rw [List.splitOnP_cons_eq_if_modifyHead] at member
      split at member
      · rcases List.mem_cons.1 member with rfl | later
        · simp
        · exact ih later
      next inside =>
        obtain ⟨front, others, parts⟩ := List.exists_cons_of_ne_nil (rest.splitOnP_ne_nil separates)
        rw [parts] at member ih
        rcases List.mem_cons.1 member with rfl | later
        · refine List.forall_mem_cons.2 ⟨by simpa using inside, ih (by simp)⟩
        · exact ih (by simp [later])

/-! ## Lines -/

/-- No part between line feeds holds a line feed. -/
theorem newline_notMem_of_mem_splitLines {text line : Text} (member : line ∈ text.splitLines) :
    '\n' ∉ line := by
  intro inside
  simpa using eq_false_of_mem_splitOnP member '\n' inside

/-- Joining what was split gives the text back. -/
@[simp] theorem joinLines_splitLines (text : Text) : joinLines text.splitLines = text :=
  List.intercalate_splitOn '\n'

/-- Splitting what was joined gives the lines back. -/
theorem splitLines_joinLines {lines : List Text} (nonempty : lines ≠ [])
    (whole : ∀ line ∈ lines, '\n' ∉ line) : (joinLines lines).splitLines = lines :=
  List.splitOn_intercalate '\n' whole nonempty

theorem dropReturn_sublist (line : Text) : (dropReturn line).Sublist line := by
  rw [dropReturn]
  split
  · exact List.dropLast_sublist line
  · exact List.Sublist.refl line

theorem newline_notMem_of_mem_lines {text line : Text} (member : line ∈ text.lines) :
    '\n' ∉ line := by
  rcases List.mem_append.1 member with inner | last
  · obtain ⟨whole, isLine, rfl⟩ := List.mem_map.1 inner
    have absent := newline_notMem_of_mem_splitLines ((List.dropLast_sublist _).subset isLine)
    exact fun inside => absent ((dropReturn_sublist whole).subset inside)
  · split at last
    · cases last
    next filled =>
      obtain rfl := List.mem_singleton.1 last
      rw [List.getLastD_eq_getLast?]
      cases ended : text.splitLines.getLast? with
      | none => simp
      | some line => exact newline_notMem_of_mem_splitLines (List.mem_of_getLast? ended)

/-! ## Words -/

theorem newline_notMem_of_mem_words {text word : Text} (member : word ∈ text.words) :
    '\n' ∉ word := by
  intro inside
  have solid := eq_false_of_mem_splitOnP (List.mem_filter.1 member).1 '\n' inside
  revert solid
  decide

end Text

end TagLift
