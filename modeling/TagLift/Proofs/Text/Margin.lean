import TagLift.Proofs.Text.Line

/-!
# Margins

What stands on a line may have white space to its left and right. The margin on the left reaches
back to the start of the line at most, the one on the right over the line feed at most. Between
two pieces of code that start and end with a character other than white space, the margin behind
the first ends before the margin in front of the second begins.
-/

namespace TagLift

namespace Text

/-- Whether a character other than white space starts at an offset. -/
def startsSolid (position : Nat) (text : Text) : Bool :=
  (dropBytes position text).head?.any (!isBlank ·)

/-- Whether a character other than white space ends at an offset. -/
def endsSolid (position : Nat) (text : Text) : Bool :=
  (takeBytes position text).getLast?.any (!isBlank ·)

section Slice

variable {source : Text} {a b position : Nat} {c : Char}
  (first : isBoundary a source) (here : isBoundary position source)

include first here

/-- The character that starts at an offset of a slice is in the slice. -/
theorem mem_slice_of_head? (last : isBoundary b source) (order : a ≤ position)
    (inside : position < b) (char : (dropBytes position source).head? = some c) :
    c ∈ slice a b source := by
  rw [← slice_append_slice first here order (Nat.le_of_lt inside), List.mem_append]
  right
  have size := byteSize_slice here last (Nat.le_of_lt inside)
  cases cut : slice position b source with
  | nil =>
      rw [cut, byteSize_nil] at size
      omega
  | cons d rest =>
      have whole := slice_append_dropBytes here (Nat.le_of_lt inside)
      rw [cut] at whole
      rw [← whole, List.cons_append, List.head?_cons, Option.some.injEq] at char
      simp [char]

/-- The character that ends at an offset of a slice is in the slice. -/
theorem mem_slice_of_getLast? (inside : a < position) (order : position ≤ b)
    (char : (takeBytes position source).getLast? = some c) : c ∈ slice a b source := by
  rw [← slice_append_slice first here (Nat.le_of_lt inside) order, List.mem_append]
  left
  have size := byteSize_slice first here (Nat.le_of_lt inside)
  have filled : slice a position source ≠ [] := by
    intro cut
    rw [cut, byteSize_nil] at size
    omega
  rw [← takeBytes_append_slice first (Nat.le_of_lt inside), List.getLast?_append,
    Option.or_of_isSome (by simpa using filled)] at char
  exact List.mem_of_getLast? char

end Slice

/-- The offsets `start` to `stop` are white space on the left of what starts at `stop`, all on one
line. -/
structure LeftMargin (source : Text) (start stop : Nat) : Prop where
  order : start ≤ stop
  boundary : isBoundary start source
  blank : isAllBlank (slice start stop source)
  oneLine : '\n' ∉ slice start stop source

/-- The offsets `start` to `stop` are white space on the right of what ends at `start`: none, or
all up to the end of the line. -/
structure RightMargin (source : Text) (start stop : Nat) : Prop where
  order : start ≤ stop
  boundary : isBoundary stop source
  blank : isAllBlank (slice start stop source)
  ends : stop = start ∨ stop = source.byteSize ∨ (takeBytes stop source).getLast? = some '\n'

/-- Something stands behind an offset where code starts. -/
theorem lt_byteSize_of_startsSolid {source : Text} {position : Nat}
    (here : isBoundary position source) (solid : startsSolid position source) :
    position < source.byteSize := by
  obtain ⟨left, right, rfl, rfl⟩ := isBoundary_iff.1 here
  obtain ⟨c, char, -⟩ := (Option.any_eq_true _ _).1 solid
  rw [dropBytes_append, List.head?_eq_some_iff] at char
  obtain ⟨rest, rfl⟩ := char
  have := c.utf8Size_pos
  simp only [byteSize_append, byteSize_cons]
  omega

/-- The margin behind one piece of code ends before the margin in front of the next begins. -/
theorem RightMargin.le_leftMargin {source : Text} {p q left right : Nat}
    (behind : RightMargin source p right) (before : LeftMargin source left q)
    (here : isBoundary p source) (there : isBoundary q source) (order : p ≤ q)
    (ends : endsSolid p source) (starts : startsSolid q source) : right ≤ left := by
  obtain ⟨final, finalChar, finalSolid⟩ := (Option.any_eq_true _ _).1 ends
  obtain ⟨next, nextChar, nextSolid⟩ := (Option.any_eq_true _ _).1 starts
  -- Neither margin reaches into the code on the other side.
  have reach : right ≤ q := by
    by_contra beyond
    have member := mem_slice_of_head? here there behind.boundary order (by omega) nextChar
    simp [List.all_eq_true.1 behind.blank next member] at nextSolid
  have reach' : p ≤ left := by
    by_contra beyond
    have member := mem_slice_of_getLast? before.boundary here (by omega) order finalChar
    simp [List.all_eq_true.1 before.blank final member] at finalSolid
  -- The margin behind ends in a line feed and the one in front holds none.
  by_contra crossed
  rcases behind.ends with none | final | newline
  · omega
  · have := lt_byteSize_of_startsSolid there starts
    omega
  · exact before.oneLine
      (mem_slice_of_getLast? before.boundary behind.boundary (by omega) reach newline)

/-- A margin does not reach into a front part of the text without white space. -/
theorem LeftMargin.le_of_all {source : Text} {p q left : Nat} (margin : LeftMargin source left q)
    (here : isBoundary p source) (order : p ≤ q)
    (solid : (takeBytes p source).all (!isBlank ·)) : p ≤ left := by
  by_contra beyond
  have filled : takeBytes p source ≠ [] := by
    intro empty
    have size := byteSize_takeBytes here
    rw [empty, byteSize_nil] at size
    omega
  have last := List.getLast?_eq_some_getLast filled
  have member := mem_slice_of_getLast? margin.boundary here (by omega) order last
  have blank := List.all_eq_true.1 margin.blank _ member
  have notBlank := List.all_eq_true.1 solid _ (List.mem_of_getLast? last)
  simp [blank] at notBlank

/-- A margin does not reach back over a character other than white space. -/
theorem LeftMargin.le_of_startsSolid {source : Text} {p q left : Nat}
    (margin : LeftMargin source left q) (here : isBoundary p source) (there : isBoundary q source)
    (order : p < q) (solid : startsSolid p source) : p ≤ left := by
  obtain ⟨c, char, notBlank⟩ := (Option.any_eq_true _ _).1 solid
  by_contra beyond
  have member := mem_slice_of_head? margin.boundary here there (by omega) order char
  simp [List.all_eq_true.1 margin.blank c member] at notBlank

section Line

variable {source : Text} {position : Nat} (here : isBoundary position source)

include here

theorem LeftMargin.refl : LeftMargin source position position :=
  ⟨Nat.le_refl _, here, by simp [isAllBlank], by simp⟩

theorem RightMargin.refl : RightMargin source position position :=
  ⟨Nat.le_refl _, here, by simp [isAllBlank], .inl rfl⟩

/-- A blank start of a line is a margin. -/
theorem leftMargin_lastLine (blank : (takeBytes position source).lastLine.isAllBlank) :
    LeftMargin source (position - (takeBytes position source).lastLine.byteSize) position := by
  obtain ⟨boundary, -, line⟩ := slice_lastLine here
  refine ⟨Nat.sub_le _ _, boundary, ?_, ?_⟩
  · rw [line]
    exact blank
  · rw [line]
    exact newline_notMem_lastLine _

/-- A blank end of a line is a margin, with its line feed. -/
theorem rightMargin_firstLine_newline (blank : (dropBytes position source).firstLine.isAllBlank)
    (more : (dropBytes position source).firstLine.length < (dropBytes position source).length) :
    RightMargin source position
      (position + (dropBytes position source).firstLine.byteSize + 1) := by
  obtain ⟨boundary, line⟩ := slice_firstLine_newline here more
  refine ⟨by omega, boundary, ?_, .inr (.inr ?_)⟩
  · rw [line, isAllBlank, List.all_append]
    exact Bool.and_eq_true_iff.2 ⟨blank, rfl⟩
  · rw [← takeBytes_append_slice here (by omega), line, ← List.append_assoc, List.getLast?_concat]

/-- The blank end of a text is a margin. -/
theorem rightMargin_firstLine (blank : (dropBytes position source).firstLine.isAllBlank)
    (all : (dropBytes position source).length ≤ (dropBytes position source).firstLine.length) :
    RightMargin source position (position + (dropBytes position source).firstLine.byteSize) := by
  obtain ⟨boundary, line⟩ := slice_firstLine here
  refine ⟨by omega, boundary, ?_, .inr (.inl ?_)⟩
  · rw [line]
    exact blank
  · have whole : (dropBytes position source).firstLine = dropBytes position source := by
      rcases firstLine_cases (dropBytes position source) with whole | ⟨rest, equal⟩
      · exact whole
      · have := congrArg List.length equal
        simp only [List.length_append, List.length_cons] at this
        omega
    rw [whole, byteSize_dropBytes here]

end Line

end Text

end TagLift
