import TagLift.Proofs.Doc.DirectiveLine
import TagLift.Proofs.Doc.Strip
import Mathlib.Data.List.GetD

/-!
# Which lines are stripped

The rule speaks of line numbers. A directive line between the first and the last line goes. A blank
line goes if it dangles: its run of blank lines has lost a directive line between the two filled
lines around it, and one of these is the first or the last line or the run has an earlier line. The
stripping itself never looks at numbers. It collects a gap and settles it at the next filled line,
so what has to be shown is that a gap is all that lies between two neighbours.
-/

namespace TagLift

/-- A line holds a directive of this kind and nothing else. No line counts for `@covers`. -/
def DirectiveKind.HeldBy (line : Text) : DirectiveKind → Prop
  | .test => DocLine.Holds "@test".toList line
  | .group => ∃ value, DocLine.HoldsValue "@group".toList Tag.isGroupChar value line
  | .dataProvider => ∃ value, DocLine.HoldsValue "@dataProvider".toList isWordChar value line
  | .covers => False

theorem DirectiveKind.isLineOf_iff {kind : DirectiveKind} {line : Text} :
    kind.isLineOf line ↔ kind.HeldBy line := by
  cases kind with
  | test => exact DocLine.isTestLine_iff
  | group => exact DocLine.isValuedLine_iff "group".toList fun _ => Tag.isBlank_of_isGroupChar
  | dataProvider =>
      exact DocLine.isValuedLine_iff "dataProvider".toList fun _ => isBlank_of_isWordChar
  | covers => simp [isLineOf, HeldBy]

instance (kind : DirectiveKind) (line : Text) : Decidable (kind.HeldBy line) :=
  decidable_of_iff _ DirectiveKind.isLineOf_iff

namespace DocLine

instance (line : Text) : Decidable (HoldsNothing line) :=
  decidable_of_iff _ isEmptyLine_iff

/-! ## The rule -/

section Rule

variable (kinds : List DirectiveKind) (lines : List Text)

/-- Line `i` is neither the first nor the last one. -/
def Inner (i : Nat) : Prop :=
  0 < i ∧ i + 1 < lines.length

/-- Line `i` is an inner line that holds a directive of one of the kinds. -/
def Removed (i : Nat) : Prop :=
  Inner lines i ∧ ∃ kind ∈ kinds, kind.HeldBy (lines.getD i [])

/-- Line `i` is an inner line that holds a star and nothing else. -/
def Blank (i : Nat) : Prop :=
  Inner lines i ∧ HoldsNothing (lines.getD i [])

/-- Line `i` is neither removed nor blank. -/
def Filled (i : Nat) : Prop :=
  i < lines.length ∧ ¬ Removed kinds lines i ∧ ¬ Blank lines i

/-- Two filled lines with no filled line between them. The lines between them that are not removed
are one maximal run of blank lines. -/
def Neighbours (left right : Nat) : Prop :=
  Filled kinds lines left ∧ Filled kinds lines right ∧
    ∀ i < right, left < i → ¬ Filled kinds lines i

/-- A line between the two is removed. -/
def Touched (left right : Nat) : Prop :=
  ∃ i < right, left < i ∧ Removed kinds lines i

/-- Line `i` is blank, a line between the neighbours of its run is removed, and a neighbour is the
first or the last line or `i` is not the first line of its run. -/
def Dangling (i : Nat) : Prop :=
  Blank lines i ∧ ∃ left < i, ∃ right < lines.length, i < right ∧
    Neighbours kinds lines left right ∧ Touched kinds lines left right ∧
    (left = 0 ∨ right + 1 = lines.length ∨ ∃ earlier < i, left < earlier ∧ Blank lines earlier)

/-- Line `i` is stripped. -/
def Goes (i : Nat) : Prop :=
  Removed kinds lines i ∨ Dangling kinds lines i

end Rule

instance (lines : List Text) : DecidablePred (Inner lines) :=
  fun _ => inferInstanceAs (Decidable (_ ∧ _))

instance (kinds : List DirectiveKind) (lines : List Text) : DecidablePred (Removed kinds lines) :=
  fun _ => inferInstanceAs (Decidable (_ ∧ _))

instance (lines : List Text) : DecidablePred (Blank lines) :=
  fun _ => inferInstanceAs (Decidable (_ ∧ _))

instance (kinds : List DirectiveKind) (lines : List Text) : DecidablePred (Filled kinds lines) :=
  fun _ => inferInstanceAs (Decidable (_ ∧ _))

instance (kinds : List DirectiveKind) (lines : List Text) (left right : Nat) :
    Decidable (Neighbours kinds lines left right) :=
  inferInstanceAs (Decidable (_ ∧ _))

instance (kinds : List DirectiveKind) (lines : List Text) (left right : Nat) :
    Decidable (Touched kinds lines left right) :=
  inferInstanceAs (Decidable (∃ i, i < right ∧ _))

instance (kinds : List DirectiveKind) (lines : List Text) : DecidablePred (Dangling kinds lines) :=
  fun i => inferInstanceAs (Decidable (_ ∧ ∃ left, left < i ∧ ∃ right, right < lines.length ∧ _))

instance (kinds : List DirectiveKind) (lines : List Text) : DecidablePred (Goes kinds lines) :=
  fun _ => inferInstanceAs (Decidable (_ ∨ _))

/-- The lines whose numbers do not go, where the first one has number `start`. -/
def staying (goes : Nat → Prop) [DecidablePred goes] (start : Nat) (lines : List Text) :
    List Text :=
  ((lines.zipIdx start).filter fun numbered => ¬ goes numbered.2).map Prod.fst

/-! ## Numbered lines -/

section Staying

variable {goes : Nat → Prop} [DecidablePred goes] {start : Nat} {lines : List Text}

theorem staying_append (before after : List Text) :
    staying goes start (before ++ after) =
      staying goes start before ++ staying goes (start + before.length) after := by
  simp [staying, List.zipIdx_append]

theorem staying_cons (stays : ¬ goes start) (line : Text) (rest : List Text) :
    staying goes start (line :: rest) = line :: staying goes (start + 1) rest := by
  simp [staying, stays]

theorem staying_eq_nil (all : ∀ j < lines.length, goes (start + j)) :
    staying goes start lines = [] := by
  rw [staying, List.map_eq_nil_iff, List.filter_eq_nil_iff]
  rintro ⟨line, number⟩ member
  obtain ⟨above, below, -⟩ := List.mem_zipIdx member
  have here := all (number - start) (by omega)
  rw [Nat.add_sub_cancel' above] at here
  simpa using here

theorem staying_eq_self (none : ∀ j < lines.length, ¬ goes (start + j)) :
    staying goes start lines = lines := by
  have all : (lines.zipIdx start).filter (fun numbered => ¬ goes numbered.2) =
      lines.zipIdx start := by
    rw [List.filter_eq_self]
    rintro ⟨line, number⟩ member
    obtain ⟨above, below, -⟩ := List.mem_zipIdx member
    have here := none (number - start) (by omega)
    rw [Nat.add_sub_cancel' above] at here
    simpa using here
  rw [staying, all, List.zipIdx_map_fst]

end Staying

/-! ## Gaps between neighbours -/

theorem isDirectiveLine_iff {kinds : List DirectiveKind} {line : Text} :
    isDirectiveLine kinds line ↔ ∃ kind ∈ kinds, kind.HeldBy line := by
  simp only [isDirectiveLine, List.any_eq_true, DirectiveKind.isLineOf_iff]

theorem Holds.mem_of_mem {tag line : Text} {c : Char} (holds : Holds tag line) (member : c ∈ tag) :
    c ∈ line := by
  cases holds
  simp [member]

/-- A directive line has an at sign and a blank line has none. -/
theorem not_holdsNothing_of_heldBy {kind : DirectiveKind} {line : Text} (held : kind.HeldBy line) :
    ¬ HoldsNothing line := by
  intro nothing
  refine nothing.at_notMem ?_
  cases kind with
  | test => exact held.mem_of_mem (by decide)
  | group =>
      obtain ⟨value, space, -, -, holds⟩ := held
      exact holds.mem_of_mem (by simp)
  | dataProvider =>
      obtain ⟨value, space, -, -, holds⟩ := held
      exact holds.mem_of_mem (by simp)
  | covers => exact held.elim

theorem isEmptyLine_eq_false {kinds : List DirectiveKind} {line : Text}
    (directive : isDirectiveLine kinds line) : isEmptyLine line = false := by
  obtain ⟨kind, -, held⟩ := isDirectiveLine_iff.1 directive
  rw [← Bool.not_eq_true, isEmptyLine_iff]
  exact not_holdsNothing_of_heldBy held

/-- The neighbours of a run are determined by any line of it. -/
theorem Neighbours.unique {kinds : List DirectiveKind} {lines : List Text}
    {left right left' right' i : Nat} (first : Neighbours kinds lines left right)
    (second : Neighbours kinds lines left' right') (inFirst : left < i ∧ i < right)
    (inSecond : left' < i ∧ i < right') : left = left' ∧ right = right' := by
  obtain ⟨filledLeft, filledRight, between⟩ := first
  obtain ⟨filledLeft', filledRight', between'⟩ := second
  constructor
  · rcases Nat.lt_trichotomy left left' with before | same | after
    · exact absurd filledLeft' (between left' (by omega) before)
    · exact same
    · exact absurd filledLeft (between' left (by omega) after)
  · rcases Nat.lt_trichotomy right right' with before | same | after
    · exact absurd filledRight (between' right before (by omega))
    · exact same
    · exact absurd filledRight' (between right' after (by omega))

/-- The lines of a comment fall into a front part that ends in a filled line, a gap of directive
lines and blank lines, and a back part that starts with a filled line. -/
structure Split (kinds : List DirectiveKind) (lines front gap back : List Text) : Prop where
  whole : front ++ gap ++ back = lines
  front_ne_nil : front ≠ []
  back_ne_nil : back ≠ []
  left : Filled kinds lines (front.length - 1)
  removable : ∀ line ∈ gap, isDirectiveLine kinds line || isEmptyLine line
  right : Filled kinds lines (front.length + gap.length)

theorem getD_mem {lines : List Text} {j : Nat} (inside : j < lines.length) :
    lines.getD j [] ∈ lines := by
  rw [List.getD_eq_getElem _ _ inside]
  exact List.getElem_mem inside

namespace Split

variable {kinds : List DirectiveKind} {lines front gap back : List Text} {j : Nat}
  (split : Split kinds lines front gap back)

include split

theorem length_eq : lines.length = front.length + gap.length + back.length := by
  rw [← split.whole, List.length_append, List.length_append]

theorem inner (inside : j < gap.length) : Inner lines (front.length + j) := by
  have first := List.length_pos_iff.2 split.front_ne_nil
  have last := List.length_pos_iff.2 split.back_ne_nil
  have total := split.length_eq
  simp only [Inner]
  omega

theorem getD_gap (inside : j < gap.length) : lines.getD (front.length + j) [] = gap.getD j [] := by
  rw [← split.whole, List.append_assoc, List.getD_append_right _ _ _ _ (Nat.le_add_right _ _),
    Nat.add_sub_cancel_left, List.getD_append _ _ _ _ inside]

theorem removed_iff (inside : j < gap.length) :
    Removed kinds lines (front.length + j) ↔ isDirectiveLine kinds (gap.getD j []) := by
  rw [Removed, and_iff_right (split.inner inside), split.getD_gap inside, isDirectiveLine_iff]

theorem blank_iff (inside : j < gap.length) :
    Blank lines (front.length + j) ↔ isEmptyLine (gap.getD j []) := by
  rw [Blank, and_iff_right (split.inner inside), split.getD_gap inside, isEmptyLine_iff]

/-- The numbers between the neighbours are those of the gap. -/
theorem exists_eq_add {i : Nat} (above : front.length - 1 < i)
    (below : i < front.length + gap.length) : ∃ j < gap.length, i = front.length + j := by
  have first := List.length_pos_iff.2 split.front_ne_nil
  exact ⟨i - front.length, by omega, by omega⟩

/-- The gap is all that lies between two neighbours. -/
theorem neighbours : Neighbours kinds lines (front.length - 1) (front.length + gap.length) := by
  refine ⟨split.left, split.right, fun i below above filled => ?_⟩
  obtain ⟨j, inside, rfl⟩ := split.exists_eq_add above below
  obtain ⟨-, notRemoved, notBlank⟩ := filled
  have removable := split.removable _ (getD_mem inside)
  rw [Bool.or_eq_true] at removable
  rcases removable with directive | empty
  · exact notRemoved ((split.removed_iff inside).2 directive)
  · exact notBlank ((split.blank_iff inside).2 empty)

theorem touched_iff :
    Touched kinds lines (front.length - 1) (front.length + gap.length) ↔
      gap.any (isDirectiveLine kinds) := by
  rw [List.any_eq_true]
  constructor
  · rintro ⟨i, below, above, removed⟩
    obtain ⟨j, inside, rfl⟩ := split.exists_eq_add above below
    exact ⟨gap.getD j [], getD_mem inside, (split.removed_iff inside).1 removed⟩
  · rintro ⟨line, member, directive⟩
    obtain ⟨j, inside, rfl⟩ := List.getElem_of_mem member
    have first := List.length_pos_iff.2 split.front_ne_nil
    refine ⟨front.length + j, by omega, by omega, (split.removed_iff inside).2 ?_⟩
    rwa [List.getD_eq_getElem _ _ inside]

/-- Which lines of a gap dangle. -/
theorem dangling_iff (inside : j < gap.length) :
    Dangling kinds lines (front.length + j) ↔
      isEmptyLine (gap.getD j []) ∧ gap.any (isDirectiveLine kinds) ∧
        (front.length = 1 ∨ back.length = 1 ∨ ∃ k < j, isEmptyLine (gap.getD k [])) := by
  have first := List.length_pos_iff.2 split.front_ne_nil
  have last := List.length_pos_iff.2 split.back_ne_nil
  have total := split.length_eq
  constructor
  · rintro ⟨blank, left, above, right, -, below, neighbours, touched, reason⟩
    obtain ⟨rfl, rfl⟩ := neighbours.unique split.neighbours ⟨above, below⟩ ⟨by omega, by omega⟩
    refine ⟨(split.blank_iff inside).1 blank, split.touched_iff.1 touched, ?_⟩
    rcases reason with atStart | atEnd | ⟨earlier, before, behind, blankEarlier⟩
    · exact .inl (by omega)
    · exact .inr (.inl (by omega))
    · obtain ⟨k, inGap, rfl⟩ := split.exists_eq_add behind (by omega)
      exact .inr (.inr ⟨k, by omega, (split.blank_iff inGap).1 blankEarlier⟩)
  · rintro ⟨empty, touched, reason⟩
    refine ⟨(split.blank_iff inside).2 empty, front.length - 1, by omega,
      front.length + gap.length, by omega, by omega, split.neighbours,
      split.touched_iff.2 touched, ?_⟩
    rcases reason with atStart | atEnd | ⟨k, before, emptyEarlier⟩
    · exact .inl (by omega)
    · exact .inr (.inl (by omega))
    · exact .inr (.inr ⟨front.length + k, by omega, by omega,
        (split.blank_iff (by omega)).2 emptyEarlier⟩)

/-- Which lines of a gap go. -/
theorem goes_iff (inside : j < gap.length) :
    Goes kinds lines (front.length + j) ↔
      isDirectiveLine kinds (gap.getD j []) ∨
        gap.any (isDirectiveLine kinds) ∧
          (front.length = 1 ∨ back.length = 1 ∨ ∃ k < j, isEmptyLine (gap.getD k [])) := by
  have removable := split.removable _ (getD_mem inside)
  rw [Bool.or_eq_true] at removable
  rw [Goes, split.removed_iff inside, split.dangling_iff inside]
  tauto

/-- Between two filled lines that are neither the first nor the last one, the first blank line of
the gap stays. -/
theorem staying_inMiddle (touched : gap.any (isDirectiveLine kinds))
    (notFirst : front.length ≠ 1) (notLast : back.length ≠ 1) :
    staying (Goes kinds lines) front.length gap =
      (gap.filter (!isDirectiveLine kinds ·)).take 1 := by
  cases found : gap.find? (!isDirectiveLine kinds ·) with
  | none =>
      have all : ∀ line ∈ gap, isDirectiveLine kinds line := by
        simpa using List.find?_eq_none.1 found
      have nothing : gap.filter (!isDirectiveLine kinds ·) = [] := by simpa using all
      rw [nothing, List.take_nil]
      exact staying_eq_nil fun j inside =>
        (split.goes_iff inside).2 (.inl (all _ (getD_mem inside)))
  | some line =>
      obtain ⟨stays, before, after, rfl, directives⟩ := List.find?_eq_some_iff_append.1 found
      simp only [Bool.not_eq_true', Bool.not_not] at stays directives
      have here : (before ++ line :: after).getD before.length [] = line := by simp
      have empty : isEmptyLine line := by
        simpa [stays] using split.removable line (by simp)
      have beforeGoes : staying (Goes kinds lines) front.length before = [] := by
        refine staying_eq_nil fun j inside => (split.goes_iff (by simp; omega)).2 (.inl ?_)
        rw [List.getD_append _ _ _ _ inside]
        exact directives _ (getD_mem inside)
      have lineStays : ¬ Goes kinds lines (front.length + before.length) := by
        rw [split.goes_iff (by simp), here, stays]
        rintro (directive | ⟨-, atStart | atEnd | ⟨k, earlier, blank⟩⟩)
        · cases directive
        · exact notFirst atStart
        · exact notLast atEnd
        · rw [List.getD_append _ _ _ _ earlier,
            isEmptyLine_eq_false (directives _ (getD_mem earlier))] at blank
          cases blank
      have afterGoes :
          staying (Goes kinds lines) (front.length + before.length + 1) after = [] := by
        refine staying_eq_nil fun j inside => ?_
        rw [Nat.add_assoc, Nat.add_assoc, split.goes_iff (by simp; omega)]
        refine .inr ⟨touched, .inr (.inr ⟨before.length, by omega, ?_⟩)⟩
        rwa [here]
      have filtered : (before ++ line :: after).filter (!isDirectiveLine kinds ·) =
          line :: after.filter (!isDirectiveLine kinds ·) := by
        rw [List.filter_append, List.filter_cons_of_pos (by simp [stays]),
          List.filter_eq_nil_iff.2 (by simpa using directives), List.nil_append]
      rw [staying_append, beforeGoes, staying_cons lineStays, afterGoes, filtered]
      rfl

/-- Settling a gap leaves the lines that do not go. -/
theorem settleGap_eq_staying :
    settleGap kinds (front.length == 1 || back.length == 1) gap =
      staying (Goes kinds lines) front.length gap := by
  rw [settleGap]
  split_ifs with touched atEdge
  · refine (staying_eq_nil fun j inside => (split.goes_iff inside).2 (.inr ⟨touched, ?_⟩)).symm
    simp only [Bool.or_eq_true, beq_iff_eq] at atEdge
    exact atEdge.imp_right .inl
  · simp only [Bool.or_eq_true, beq_iff_eq, not_or] at atEdge
    exact (split.staying_inMiddle touched atEdge.1 atEdge.2).symm
  · refine (staying_eq_self fun j inside goes => touched ?_).symm
    rcases (split.goes_iff inside).1 goes with directive | ⟨touched, -⟩
    · exact List.any_eq_true.2 ⟨_, getD_mem inside, directive⟩
    · exact touched

end Split

/-! ## Whole comments -/

section Whole

variable {kinds : List DirectiveKind} {lines : List Text} {i : Nat}

/-- The first and the last line are filled. -/
theorem filled_of_not_inner (inside : i < lines.length) (outer : ¬ Inner lines i) :
    Filled kinds lines i :=
  ⟨inside, fun removed => outer removed.1, fun blank => outer blank.1⟩

theorem not_goes_of_filled (filled : Filled kinds lines i) : ¬ Goes kinds lines i := by
  rintro (removed | dangling)
  · exact filled.2.1 removed
  · exact filled.2.2 dangling.1

theorem filled_of_stays {line : Text} (inside : i < lines.length) (here : lines.getD i [] = line)
    (stays : ¬ (isDirectiveLine kinds line || isEmptyLine line)) : Filled kinds lines i := by
  simp only [Bool.or_eq_true, not_or, isDirectiveLine_iff, isEmptyLine_iff] at stays
  refine ⟨inside, fun removed => stays.1 ?_, fun blank => stays.2 ?_⟩
  · exact here ▸ removed.2
  · exact here ▸ blank.2

/-- Settling the inner lines behind a filled line leaves those that do not go. -/
theorem settle_eq_staying {front gap rest : List Text} {last : Text}
    (whole : front ++ gap ++ (rest ++ [last]) = lines) (nonempty : front ≠ [])
    (left : Filled kinds lines (front.length - 1))
    (removable : ∀ line ∈ gap, isDirectiveLine kinds line || isEmptyLine line) :
    settle kinds (front.length == 1) gap rest =
      staying (Goes kinds lines) front.length (gap ++ rest) := by
  induction rest generalizing front gap with
  | nil =>
      have total : lines.length = front.length + gap.length + 1 := by simp [← whole]; omega
      have right : Filled kinds lines (front.length + gap.length) :=
        filled_of_not_inner (by omega) (by simp only [Inner]; omega)
      have split : Split kinds lines front gap [last] :=
        ⟨whole, nonempty, by simp, left, removable, right⟩
      rw [settle, List.append_nil, ← split.settleGap_eq_staying]
      simp
  | cons line rest ih =>
      rw [settle]
      split
      next inGap =>
        have grown : front ++ (gap ++ [line]) ++ (rest ++ [last]) = lines := by simp [← whole]
        rw [ih grown nonempty left, List.append_assoc, List.singleton_append]
        intro other member
        rcases List.mem_append.1 member with inside | this
        · exact removable other inside
        · obtain rfl := List.mem_singleton.1 this
          exact inGap
      next filled =>
        have right : Filled kinds lines (front.length + gap.length) :=
          filled_of_stays (by simp [← whole]) (by simp [← whole]) filled
        have split : Split kinds lines front gap (line :: rest ++ [last]) :=
          ⟨whole, nonempty, by simp, left, removable, right⟩
        have atEdge : (front.length == 1 || (line :: rest ++ [last]).length == 1) =
            (front.length == 1) := by simp
        have settled := split.settleGap_eq_staying
        rw [atEdge] at settled
        have first := List.length_pos_iff.2 nonempty
        have later : (front ++ gap ++ [line]).length = front.length + gap.length + 1 := by
          simp only [List.length_append, List.length_singleton]
        have notFirst : ((front ++ gap ++ [line]).length == 1) = false := by
          rw [later, beq_eq_false_iff_ne]
          omega
        have rest := @ih (front ++ gap ++ [line]) [] (by simp [← whole]) (by simp)
          (by rw [later]; exact right) (List.forall_mem_nil _)
        rw [notFirst, later, List.nil_append] at rest
        rw [staying_append, staying_cons (not_goes_of_filled right), settled, rest]

theorem settle_between {first last : Text} {inner : List Text}
    (whole : first :: inner ++ [last] = lines) :
    first :: settle kinds true [] inner ++ [last] =
      staying (Goes kinds lines) 0 (first :: inner ++ [last]) := by
  have total : lines.length = inner.length + 2 := by simp [← whole]
  have filledFirst : Filled kinds lines 0 := filled_of_not_inner (by omega) (by simp [Inner])
  have filledLast : Filled kinds lines (0 + 1 + inner.length) :=
    filled_of_not_inner (by omega) (by simp only [Inner]; omega)
  have behind : [first] ++ [] ++ (inner ++ [last]) = lines := whole
  have settled : settle kinds true [] inner = staying (Goes kinds lines) 1 inner :=
    settle_eq_staying behind (by simp) filledFirst (List.forall_mem_nil _)
  rw [List.cons_append, List.cons_append, staying_cons (not_goes_of_filled filledFirst),
    staying_append, staying_cons (not_goes_of_filled filledLast), settled]
  rfl

/-- Stripping leaves the lines that do not go. -/
theorem stripLines_eq_staying (kinds : List DirectiveKind) (lines : List Text) :
    stripLines kinds lines = staying (Goes kinds lines) 0 lines := by
  match lines with
  | [] => rfl
  | [line] =>
      have filled : Filled kinds [line] 0 := filled_of_not_inner (by simp) (by simp [Inner])
      rw [staying_cons (not_goes_of_filled filled)]
      rfl
  | first :: second :: rest =>
      obtain ⟨inner, last, split⟩ := exists_inner first second rest
      rw [split, stripLines_append]
      exact settle_between rfl

/-- A run between neighbours with no removed line between them stays. -/
theorem not_goes_of_not_touched {left right : Nat} (neighbours : Neighbours kinds lines left right)
    (untouched : ¬ Touched kinds lines left right) (above : left < i) (below : i < right) :
    ¬ Goes kinds lines i := by
  rintro (removed | ⟨-, left', above', right', -, below', neighbours', touched, -⟩)
  · exact untouched ⟨i, below, above, removed⟩
  · obtain ⟨rfl, rfl⟩ := neighbours.unique neighbours' ⟨above, below⟩ ⟨above', below'⟩
    exact untouched touched

end Whole

end DocLine

/-- The lines of a stripped comment are the old lines in order without those that go: the inner
directive lines of the kinds and the blank lines that they leave dangling. So the first line, the
last line and every other line that is neither a directive line nor blank stay, and so does every
run of blank lines with no removed line between its neighbours. A second stripping changes nothing,
and every directive of the result was a directive before. -/
theorem stripDirectives_leaves (kinds : List DirectiveKind) (doc : Text) :
    let lines := doc.splitLines
    (stripDirectives kinds doc).splitLines =
        DocLine.staying (DocLine.Goes kinds lines) 0 lines ∧
      (∀ i < lines.length,
        (i = 0 ∨ i + 1 = lines.length ∨
          (∀ kind ∈ kinds, ¬ kind.HeldBy (lines.getD i [])) ∧
            ¬ DocLine.HoldsNothing (lines.getD i [])) →
        ¬ DocLine.Goes kinds lines i) ∧
      (∀ left right, DocLine.Neighbours kinds lines left right →
        ¬ DocLine.Touched kinds lines left right →
        ∀ i, left < i → i < right → ¬ DocLine.Goes kinds lines i) ∧
      stripDirectives kinds (stripDirectives kinds doc) = stripDirectives kinds doc ∧
      (Directives.ofDoc (stripDirectives kinds doc)).Within (Directives.ofDoc doc) := by
  intro lines
  refine ⟨?_, fun i inside stays => ?_, ?_, ?_, ?_⟩
  · rw [splitLines_stripDirectives, DocLine.stripLines_eq_staying]
  · apply DocLine.not_goes_of_filled
    rcases stays with first | last | ⟨noDirective, notBlank⟩
    · exact DocLine.filled_of_not_inner inside (by simp [DocLine.Inner, first])
    · exact DocLine.filled_of_not_inner inside (by simp [DocLine.Inner, last])
    · refine ⟨inside, ?_, fun blank => notBlank blank.2⟩
      rintro ⟨-, kind, asked, held⟩
      exact noDirective kind asked held
  · intro left right neighbours untouched i above below
    exact DocLine.not_goes_of_not_touched neighbours untouched above below
  · exact stripDirectives_stripDirectives (List.Subset.refl kinds) doc
  · exact Directives.ofDoc_stripDirectives_within kinds doc

/-- The run around the directive keeps its first line, the untouched run of two stays, and the run
in front of the last line goes. -/
example :
    let lines : List Text :=
      ["/**", " * a", " *", " * @test", " *", " * b", " *", " *", " * c", " *", " * @test",
        " */"].map String.toList
    DocLine.staying (DocLine.Goes [.test] lines) 0 lines =
      ["/**", " * a", " *", " * b", " *", " *", " * c", " */"].map String.toList := by
  decide +kernel

end TagLift
