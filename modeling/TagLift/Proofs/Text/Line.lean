import TagLift.Proofs.Text.Offset
import Mathlib.Data.List.TakeWhile

/-!
# First and last lines

A text is its first line and, unless that is all, a line feed and the rest. It also is everything
up to its last line feed and then the last line.
-/

namespace TagLift

namespace Text

theorem newline_notMem_firstLine (text : Text) : '\n' ∉ firstLine text := by
  intro member
  simpa using List.mem_takeWhile_imp member

/-- A text is its first line, or goes on behind a line feed. -/
theorem firstLine_cases (text : Text) :
    firstLine text = text ∨ ∃ rest, text = firstLine text ++ '\n' :: rest := by
  induction text with
  | nil => exact .inl rfl
  | cons c text ih =>
      by_cases ends : c = '\n'
      · exact .inr ⟨text, by simp [firstLine, ends]⟩
      · have first : firstLine (c :: text) = c :: firstLine text := by simp [firstLine, ends]
        rw [first]
        rcases ih with all | ⟨rest, equal⟩
        · exact .inl (by rw [all])
        · exact .inr ⟨rest, by rw [List.cons_append, ← equal]⟩

theorem newline_notMem_lastLine (text : Text) : '\n' ∉ lastLine text := by
  intro member
  rw [lastLine, List.mem_reverse] at member
  simpa using List.mem_takeWhile_imp member

/-- A text ends in its last line. -/
theorem exists_append_lastLine (text : Text) : ∃ front, text = front ++ lastLine text := by
  refine ⟨(text.reverse.dropWhile (· != '\n')).reverse, ?_⟩
  rw [lastLine, ← List.reverse_append, List.takeWhile_append_dropWhile, List.reverse_reverse]

section Around

variable {source : Text} {position : Nat} (boundary : isBoundary position source)

include boundary

/-- The last line before a boundary ends there. -/
theorem slice_lastLine :
    isBoundary (position - (takeBytes position source).lastLine.byteSize) source ∧
      (takeBytes position source).lastLine.byteSize ≤ position ∧
      slice (position - (takeBytes position source).lastLine.byteSize) position source =
        (takeBytes position source).lastLine := by
  obtain ⟨left, right, rfl, rfl⟩ := isBoundary_iff.1 boundary
  rw [takeBytes_append]
  obtain ⟨front, equal⟩ := exists_append_lastLine left
  have size : left.byteSize = front.byteSize + left.lastLine.byteSize := by
    rw [← byteSize_append, ← equal]
  have start : left.byteSize - left.lastLine.byteSize = front.byteSize := by omega
  have whole : left ++ right = front ++ left.lastLine ++ right := by rw [← equal]
  refine ⟨?_, by omega, ?_⟩
  · rw [start, whole, List.append_assoc]
    exact isBoundary_append _ _
  · rw [start, size, whole, slice_append]

/-- The first line behind a boundary starts there. -/
theorem slice_firstLine :
    isBoundary (position + (dropBytes position source).firstLine.byteSize) source ∧
      slice position (position + (dropBytes position source).firstLine.byteSize) source =
        (dropBytes position source).firstLine := by
  obtain ⟨left, right, rfl, rfl⟩ := isBoundary_iff.1 boundary
  rw [dropBytes_append, isBoundary_add_append]
  obtain ⟨back, equal⟩ : ∃ back, right = right.firstLine ++ back := by
    rcases firstLine_cases right with all | ⟨rest, equal⟩
    · exact ⟨[], by simp [all]⟩
    · exact ⟨_, equal⟩
  have whole : left ++ right = left ++ right.firstLine ++ back := by
    rw [List.append_assoc, ← equal]
  constructor
  · exact isBoundary_iff.2 ⟨_, back, equal, rfl⟩
  · rw [whole, slice_append]

/-- With its line feed, if there is one. -/
theorem slice_firstLine_newline
    (more : (dropBytes position source).firstLine.length < (dropBytes position source).length) :
    isBoundary (position + (dropBytes position source).firstLine.byteSize + 1) source ∧
      slice position (position + (dropBytes position source).firstLine.byteSize + 1) source =
        (dropBytes position source).firstLine ++ ['\n'] := by
  obtain ⟨left, right, rfl, rfl⟩ := isBoundary_iff.1 boundary
  rw [dropBytes_append] at more ⊢
  rw [Nat.add_assoc, isBoundary_add_append]
  rcases firstLine_cases right with all | ⟨rest, equal⟩
  · rw [all] at more
    omega
  have size : (right.firstLine ++ ['\n']).byteSize = right.firstLine.byteSize + 1 := by
    rw [byteSize_append]
    rfl
  have split : right = right.firstLine ++ ['\n'] ++ rest := by
    rw [List.append_assoc]
    exact equal
  have whole : left ++ right = left ++ (right.firstLine ++ ['\n']) ++ rest := by
    rw [List.append_assoc, ← split]
  constructor
  · exact isBoundary_iff.2 ⟨_, rest, split, size⟩
  · rw [whole, ← size, slice_append]

end Around

end Text

end TagLift
