import TagLift.Proofs.Layout.Normalize
import TagLift.Proofs.Text.Part
import TagLift.Proofs.Text.Replacement

/-!
# Runs of line ends

Collapsing leaves no run of three line ends, with one exception. A carriage return without a line
feed is no line end, so it stays where it is. If it stands right in front of a run that starts with
a pair, and single line feeds replace the run, then it pairs with the first of them, and a line end
in front of it makes the run longer than two.
-/

namespace TagLift

/-- A line feed, with or without a carriage return in front. -/
def IsLineEnd (ending : Text) : Prop :=
  ending = ['\n'] ∨ ending = ['\r', '\n']

instance (ending : Text) : Decidable (IsLineEnd ending) :=
  inferInstanceAs (Decidable (_ ∨ _))

/-! ## The line ends at the front of a text -/

@[simp] theorem lineEnds_feed (rest : Text) :
    lineEnds ('\n' :: rest) = ['\n'] :: lineEnds rest := rfl

@[simp] theorem lineEnds_pair (rest : Text) :
    lineEnds ('\r' :: '\n' :: rest) = ['\r', '\n'] :: lineEnds rest := rfl

theorem lineEnds_return {rest : Text} (lone : rest.head? ≠ some '\n') :
    lineEnds ('\r' :: rest) = [] := by
  rw [lineEnds]
  · rintro others ⟨⟩
    exact lone rfl
  · rintro others ⟨⟩

theorem lineEnds_other {c : Char} {rest : Text} (feed : c ≠ '\n') (carriage : c ≠ '\r') :
    lineEnds (c :: rest) = [] := by
  rw [lineEnds]
  · rintro others ⟨⟩
    exact carriage rfl
  · rintro others ⟨⟩
    exact feed rfl

theorem isLineEnd_of_mem_lineEnds {text ending : Text} (member : ending ∈ lineEnds text) :
    IsLineEnd ending := by
  fun_induction lineEnds text with
  | case1 rest ih => exact (List.mem_cons.1 member).elim .inr ih
  | case2 rest ih => exact (List.mem_cons.1 member).elim .inl ih
  | case3 => cases member

theorem lineEnds_flatten_append {ends : List Text} (each : ∀ ending ∈ ends, IsLineEnd ending)
    (back : Text) : lineEnds (ends.flatten ++ back) = ends ++ lineEnds back := by
  induction ends with
  | nil => rfl
  | cons ending ends ih =>
      obtain ⟨first, later⟩ := List.forall_mem_cons.1 each
      rcases first with rfl | rfl <;> simp [ih later]

/-- A run of line ends stops in front of a carriage return without a line feed. -/
theorem flatten_lineEnds_isPrefix {front rest : Text} (lone : rest.head? ≠ some '\n') :
    (lineEnds (front ++ '\r' :: rest)).flatten <+: front := by
  fun_induction lineEnds front with
  | case1 front ih => simpa using ih
  | case2 front ih => simpa using ih
  | case3 front pair feed =>
      have nothing : lineEnds (front ++ '\r' :: rest) = [] := by
        rcases front with _ | ⟨c, _ | ⟨d, front⟩⟩
        · exact lineEnds_return lone
        · by_cases carriage : c = '\r'
          · subst carriage
            exact lineEnds_return (by simp)
          · exact lineEnds_other (fun same => feed [] (same ▸ rfl)) carriage
        · by_cases carriage : c = '\r'
          · subst carriage
            refine lineEnds_return fun head => pair front ?_
            rw [Option.some.inj head]
          · exact lineEnds_other (fun same => feed (d :: front) (same ▸ rfl)) carriage
      rw [nothing]
      exact List.nil_prefix

theorem exists_flatten_lineEnds_eq_concat {text : Text} (filled : lineEnds text ≠ []) :
    ∃ front, (lineEnds text).flatten = front ++ ['\n'] := by
  fun_induction lineEnds text with
  | case1 rest ih =>
      by_cases more : lineEnds rest = []
      · exact ⟨['\r'], by simp [more]⟩
      · obtain ⟨front, equal⟩ := ih more
        exact ⟨'\r' :: '\n' :: front, by simp [equal]⟩
  | case2 rest ih =>
      by_cases more : lineEnds rest = []
      · exact ⟨[], by simp [more]⟩
      · obtain ⟨front, equal⟩ := ih more
        exact ⟨'\n' :: front, by simp [equal]⟩
  | case3 => exact absurd rfl filled

namespace Layout

/-! ## Where a run occurs -/

/-- Three or more line ends in a row somewhere in a text. -/
def HasBlankRun (text : Text) : Prop :=
  ∃ ends : List Text, 3 ≤ ends.length ∧ (∀ ending ∈ ends, IsLineEnd ending) ∧
    ends.flatten <:+: text

theorem isSome_blankRun {text : Text} : (blankRun text).isSome ↔ 3 ≤ (lineEnds text).length := by
  rw [blankRun]
  split <;> simp_all

theorem blankRun_eq_none {text : Text} : blankRun text = none ↔ (lineEnds text).length ≤ 2 := by
  rw [← Option.not_isSome_iff_eq_none, isSome_blankRun]
  omega

/-- The form is read somewhere exactly if there are three line ends in a row. -/
theorem hasBlankRun_iff {text : Text} : HasBlankRun text ↔ blankRun.occursIn text := by
  rw [Form.occursIn_iff rfl]
  constructor
  · rintro ⟨ends, three, each, front, back, rfl⟩
    refine ⟨front, ends.flatten ++ back, List.append_assoc _ _ _, ?_⟩
    rw [isSome_blankRun, lineEnds_flatten_append each, List.length_append]
    omega
  · rintro ⟨front, back, rfl, read⟩
    refine ⟨lineEnds back, isSome_blankRun.1 read, fun _ => isLineEnd_of_mem_lineEnds, ?_⟩
    exact (flatten_lineEnds back).2.1.isInfix.trans (List.suffix_append front back).isInfix

theorem not_hasBlankRun_iff {text : Text} :
    ¬HasBlankRun text ↔ blankRun.occursIn text = false := by
  rw [hasBlankRun_iff, Bool.not_eq_true]

/-- A character that stands in no line end keeps runs apart. -/
theorem hasBlankRun_append_cons {left right : Text} {c : Char} (feed : c ≠ '\n')
    (carriage : c ≠ '\r') :
    HasBlankRun (left ++ c :: right) ↔ HasBlankRun left ∨ HasBlankRun right := by
  have absent {ends : List Text} (each : ∀ ending ∈ ends, IsLineEnd ending) : c ∉ ends.flatten := by
    intro member
    obtain ⟨ending, isEnd, inside⟩ := List.mem_flatten.1 member
    rcases each ending isEnd with rfl | rfl <;> simp_all
  constructor
  · rintro ⟨ends, three, each, inside⟩
    exact ((Text.isInfix_append_cons (absent each)).1 inside).imp
      (⟨ends, three, each, ·⟩) (⟨ends, three, each, ·⟩)
  · rintro (⟨ends, three, each, inside⟩ | ⟨ends, three, each, inside⟩)
    · exact ⟨ends, three, each, (Text.isInfix_append_cons (absent each)).2 (.inl inside)⟩
    · exact ⟨ends, three, each, (Text.isInfix_append_cons (absent each)).2 (.inr inside)⟩

/-! ## Carriage returns of their own -/

/-- A carriage return of its own, and then three or more line ends, the first one a pair. -/
def StartsReturnRun (text : Text) : Prop :=
  ∃ rest, text = '\r' :: '\r' :: '\n' :: rest ∧ 2 ≤ (lineEnds rest).length

/-- A carriage return of its own between a line feed and a run that starts with a pair. -/
def HasReturnRun (text : Text) : Prop :=
  ∃ ends : List Text, 2 ≤ ends.length ∧ (∀ ending ∈ ends, IsLineEnd ending) ∧
    "\n\r\r\n".toList ++ ends.flatten <:+: text

theorem hasReturnRun_iff {text : Text} :
    HasReturnRun text ↔ ∃ front back, text = front ++ '\n' :: back ∧ StartsReturnRun back := by
  constructor
  · rintro ⟨ends, two, each, front, back, rfl⟩
    refine ⟨front, _, by simp, ends.flatten ++ back, rfl, ?_⟩
    rw [lineEnds_flatten_append each, List.length_append]
    omega
  · rintro ⟨front, back, rfl, rest, rfl, two⟩
    obtain ⟨behind, split⟩ := (flatten_lineEnds rest).2.1
    refine ⟨lineEnds rest, two, fun _ => isLineEnd_of_mem_lineEnds, front, behind, ?_⟩
    rw [List.append_assoc, List.append_assoc, split]
    rfl

theorem HasReturnRun.append {text : Text} (has : HasReturnRun text) (front : Text) :
    HasReturnRun (front ++ text) := by
  obtain ⟨ends, two, each, inside⟩ := has
  exact ⟨ends, two, each, inside.trans (List.suffix_append front text).isInfix⟩

/-! ## Collapsing -/

theorem reads_blankRun : blankRun.Reads := by
  intro text found read
  obtain ⟨nonempty, front, -⟩ := blankRun_keepsBare (.inl rfl) text found read
  exact ⟨nonempty, front⟩

/-- Behind a run there is no line end, and the run ends in a line feed. -/
theorem blankRun_append {found : Occurrence} {back : Text}
    (read : blankRun (found.whole ++ back) = some found) :
    lineEnds back = [] ∧ (lineEnds (found.whole ++ back)).flatten = found.whole ∧
      ∃ run, found.whole = run ++ ['\n'] := by
  obtain ⟨equal, filled⟩ := blankRun_eq_some read
  have whole : found.whole = (lineEnds (found.whole ++ back)).flatten := congrArg (·.whole) equal
  refine ⟨?_, whole.symm, ?_⟩
  · have each : ∀ ending ∈ lineEnds (found.whole ++ back), IsLineEnd ending :=
      fun _ => isLineEnd_of_mem_lineEnds
    have ends := lineEnds_flatten_append each back
    rw [← whole] at ends
    simpa using ends
  · rw [whole]
    exact exists_flatten_lineEnds_eq_concat filled

section Collapse

variable {newline : Text} (ending : IsLineEnd newline)

include ending

theorem lineEnds_newlines (back : Text) :
    lineEnds (newline ++ newline ++ back) = newline :: newline :: lineEnds back := by
  rcases ending with rfl | rfl <;> rfl

theorem expand_newlines (found : Occurrence) :
    Template.expand (newline ++ newline) found = newline ++ newline := by
  rcases ending with rfl | rfl <;> rfl

/-- To show something of every text and the collapsed one, it is enough to look at a copied
character and at a run with what stands behind it. -/
theorem collapseBlankLines_induction {motive : Text → Text → Prop} (nil : motive [] [])
    (copy : ∀ c rest, (lineEnds (c :: rest)).length ≤ 2 →
      motive rest (collapseBlankLines newline rest) →
      motive (c :: rest) (c :: collapseBlankLines newline rest))
    (swap : ∀ run back, 3 ≤ (lineEnds (run ++ '\n' :: back)).length →
      (lineEnds (run ++ '\n' :: back)).flatten = run ++ ['\n'] → lineEnds back = [] →
      motive back (collapseBlankLines newline back) →
      motive (run ++ '\n' :: back) (newline ++ newline ++ collapseBlankLines newline back))
    (text : Text) : motive text (collapseBlankLines newline text) := by
  refine Form.replaceAll_induction reads_blankRun nil ?_ ?_ text
  · intro c rest unread later
    exact copy c rest (blankRun_eq_none.1 unread) later
  · intro found back read later
    obtain ⟨behind, ends, run, whole⟩ := blankRun_append read
    have three : 3 ≤ (lineEnds (found.whole ++ back)).length := isSome_blankRun.1 (by simp [read])
    have split : found.whole ++ back = run ++ '\n' :: back := by simp [whole]
    rw [split] at three ends ⊢
    rw [expand_newlines ending]
    exact swap run back three (ends.trans whole) behind later

theorem collapseBlankLines_of_run {text : Text} (three : 3 ≤ (lineEnds text).length) :
    ∃ run back, text = run ++ '\n' :: back ∧ lineEnds back = [] ∧
      collapseBlankLines newline text = newline ++ newline ++ collapseBlankLines newline back := by
  obtain ⟨found, read⟩ := Option.isSome_iff_exists.1 (isSome_blankRun.2 three)
  obtain ⟨back, rfl⟩ := (reads_blankRun _ _ read).2
  obtain ⟨behind, -, run, whole⟩ := blankRun_append read
  refine ⟨run, back, by simp [whole], behind, ?_⟩
  rw [collapseBlankLines, Form.replaceAll_of_some reads_blankRun read, expand_newlines ending]
  rfl

omit ending in
theorem collapseBlankLines_of_no_run {c : Char} {rest : Text}
    (few : (lineEnds (c :: rest)).length ≤ 2) :
    collapseBlankLines newline (c :: rest) = c :: collapseBlankLines newline rest :=
  Form.replaceAll_of_none (blankRun_eq_none.2 few)

/-- No carriage return of the text pairs with a line feed that is put behind it. -/
structure ReturnsApart (newline text : Text) : Prop where
  inside : newline = ['\n'] → ¬HasReturnRun text
  start : newline = ['\n'] → ¬StartsReturnRun text

omit ending in
theorem returnsApart_behind_feed {front back : Text}
    (kept : newline = ['\n'] → ¬HasReturnRun (front ++ '\n' :: back)) :
    ReturnsApart newline back where
  inside single has := kept single (by simpa using has.append (front ++ ['\n']))
  start single starts := kept single (hasReturnRun_iff.2 ⟨front, back, rfl, starts⟩)

omit ending in
theorem startsReturnRun_of_run {rest : Text} (three : 3 ≤ (lineEnds rest).length)
    (lone : rest.head? ≠ some '\n') : StartsReturnRun ('\r' :: rest) := by
  fun_cases lineEnds rest with
  | case1 others => exact ⟨others, rfl, by simpa using three⟩
  | case2 others => exact absurd rfl lone
  | case3 => simp_all [lineEnds]

/-- A carriage return of its own stays alone. -/
theorem head?_collapseBlankLines_ne {rest : Text} (apart : ReturnsApart newline ('\r' :: rest))
    (lone : rest.head? ≠ some '\n') : (collapseBlankLines newline rest).head? ≠ some '\n' := by
  by_cases run : 3 ≤ (lineEnds rest).length
  · obtain ⟨-, back, -, -, collapsed⟩ := collapseBlankLines_of_run ending run
    rw [collapsed]
    rcases ending with rfl | rfl
    · exact absurd (startsReturnRun_of_run run lone) (apart.start rfl)
    · simp
  · cases rest with
    | nil => exact lone
    | cons first others =>
        rw [collapseBlankLines_of_no_run (by omega)]
        exact lone

omit ending in
theorem ReturnsApart.tail {c : Char} {rest : Text} (apart : ReturnsApart newline (c :: rest))
    (start : rest.head? ≠ some '\r') : ReturnsApart newline rest where
  inside single has := apart.inside single (has.append [c])
  start _ := by
    rintro ⟨others, rfl, -⟩
    exact start rfl

/-- A collapsed text starts with at most two line ends, and with no more than it had. -/
theorem length_lineEnds_collapseBlankLines {text : Text} (apart : ReturnsApart newline text) :
    (lineEnds (collapseBlankLines newline text)).length ≤ min 2 (lineEnds text).length := by
  revert apart
  refine collapseBlankLines_induction ending
    (motive := fun text collapsed => ReturnsApart newline text →
      (lineEnds collapsed).length ≤ min 2 (lineEnds text).length) ?_ ?_ ?_ text
  · intro _
    exact Nat.zero_le _
  · intro c rest few ih apart
    by_cases feed : c = '\n'
    · subst feed
      have kept : newline = ['\n'] → ¬HasReturnRun ([] ++ '\n' :: rest) := apart.inside
      have later := ih (returnsApart_behind_feed kept)
      simp only [lineEnds_feed, List.length_cons] at few ⊢
      omega
    by_cases carriage : c = '\r'
    · subst carriage
      by_cases pair : rest.head? = some '\n'
      · obtain ⟨others, rfl⟩ := List.head?_eq_some_iff.1 pair
        have later := ih (apart.tail (by simp))
        rw [collapseBlankLines_of_no_run (by simpa using few)] at later ⊢
        simpa using later
      · rw [lineEnds_return (head?_collapseBlankLines_ne ending apart pair)]
        exact Nat.zero_le _
    · rw [lineEnds_other feed carriage]
      exact Nat.zero_le _
  · intro run back three _ behind ih apart
    have later := ih (returnsApart_behind_feed apart.inside)
    rw [behind, List.length_nil, Nat.min_zero] at later
    rw [lineEnds_newlines ending, List.length_cons, List.length_cons]
    omega

theorem lineEnds_collapseBlankLines_behind {run back : Text}
    (kept : newline = ['\n'] → ¬HasReturnRun (run ++ '\n' :: back)) (behind : lineEnds back = []) :
    lineEnds (collapseBlankLines newline back) = [] := by
  have few := length_lineEnds_collapseBlankLines ending (returnsApart_behind_feed kept)
  simpa [behind] using few

/-- Collapsing leaves no run, unless a carriage return can pair with a line feed. -/
theorem not_hasBlankRun_collapseBlankLines {text : Text}
    (kept : newline = ['\n'] → ¬HasReturnRun text) :
    ¬HasBlankRun (collapseBlankLines newline text) := by
  rw [not_hasBlankRun_iff]
  revert kept
  refine collapseBlankLines_induction ending
    (motive := fun text collapsed => (newline = ['\n'] → ¬HasReturnRun text) →
      blankRun.occursIn collapsed = false) ?_ ?_ ?_ text
  · intro _
    rfl
  · intro c rest few ih kept
    have later : newline = ['\n'] → ¬HasReturnRun rest :=
      fun single has => kept single (has.append [c])
    refine Form.occursIn_cons_eq_false.2 ⟨blankRun_eq_none.2 ?_, ih later⟩
    by_cases starts : newline = ['\n'] ∧ StartsReturnRun (c :: rest)
    · -- The carriage return pairs with the first of two line feeds, and nothing follows them.
      obtain ⟨rfl, others, equal, two⟩ := starts
      obtain ⟨rfl, rfl⟩ := List.cons.inj equal
      have three : 3 ≤ (lineEnds ('\r' :: '\n' :: others)).length := by simpa using two
      obtain ⟨run, back, split, behind, collapsed⟩ := collapseBlankLines_of_run ending three
      rw [split] at later
      rw [collapsed]
      simp [lineEnds_collapseBlankLines_behind ending later behind]
    · have apart : ReturnsApart newline (c :: rest) :=
        ⟨kept, fun single run => starts ⟨single, run⟩⟩
      have short := length_lineEnds_collapseBlankLines ending apart
      rw [collapseBlankLines_of_no_run few] at short
      omega
  · intro run back three _ behind ih kept
    have nothing := lineEnds_collapseBlankLines_behind ending kept behind
    have later := ih (returnsApart_behind_feed kept).inside
    rcases ending with rfl | rfl <;>
      simp [Form.occursIn_cons_eq_false, blankRun_eq_none, nothing, later]

end Collapse

/-! ## The exception -/

/-- What stands in front of a carriage return of its own is collapsed by itself, and ends in the
line feed it ended in. -/
theorem exists_collapseBlankLines_append (front : Text) {rest : Text}
    (lone : rest.head? ≠ some '\n') :
    ∃ done, collapseBlankLines ['\n'] (front ++ '\n' :: '\r' :: rest) =
      done ++ '\n' :: '\r' :: collapseBlankLines ['\n'] rest := by
  have copied : collapseBlankLines ['\n'] ('\r' :: rest) =
      '\r' :: collapseBlankLines ['\n'] rest :=
    collapseBlankLines_of_no_run (by simp [lineEnds_return lone])
  generalize whole : front ++ '\n' :: '\r' :: rest = text
  revert front
  refine collapseBlankLines_induction (.inl rfl)
    (motive := fun text collapsed => ∀ front, front ++ '\n' :: '\r' :: rest = text →
      ∃ done, collapsed = done ++ '\n' :: '\r' :: collapseBlankLines ['\n'] rest) ?_ ?_ ?_ text
  · simp
  · intro c others few ih front equal
    cases front with
    | nil =>
        obtain ⟨rfl, rfl⟩ := List.cons.inj equal
        exact ⟨[], congrArg _ copied⟩
    | cons first front =>
        obtain ⟨rfl, tails⟩ := List.cons.inj equal
        obtain ⟨done, collapsed⟩ := ih front tails
        exact ⟨first :: done, congrArg _ collapsed⟩
  · intro run back three ends behind ih front equal
    -- The run does not reach the carriage return, so it ends in the line feed or before it.
    have reach : (lineEnds (front ++ ['\n'] ++ '\r' :: rest)).flatten <+: front ++ ['\n'] :=
      flatten_lineEnds_isPrefix lone
    rw [List.append_assoc, List.cons_append, List.nil_append, equal, ends] at reach
    rcases List.prefix_concat_iff.1 reach with last | ⟨others, rfl⟩
    · obtain rfl : run = front := by simpa using last
      obtain rfl : '\r' :: rest = back := by simpa using equal
      exact ⟨['\n'], congrArg _ copied⟩
    · obtain ⟨done, collapsed⟩ := ih others (by simpa using equal)
      exact ⟨'\n' :: '\n' :: done, congrArg _ collapsed⟩

theorem hasBlankRun_collapseBlankLines {text : Text} (has : HasReturnRun text) :
    HasBlankRun (collapseBlankLines ['\n'] text) := by
  obtain ⟨front, back, rfl, rest, rfl, two⟩ := hasReturnRun_iff.1 has
  have lone : ('\r' :: '\n' :: rest).head? ≠ some '\n' := by simp
  obtain ⟨done, collapsed⟩ := exists_collapseBlankLines_append front lone
  have three : 3 ≤ (lineEnds ('\r' :: '\n' :: rest)).length := by simpa using two
  obtain ⟨-, back, -, -, run⟩ := collapseBlankLines_of_run (.inl rfl) three
  rw [collapsed, run]
  refine ⟨[['\n'], ['\r', '\n'], ['\n']], by decide, by decide, done,
    collapseBlankLines ['\n'] back, ?_⟩
  simp

/-- Collapsing leaves a run exactly if single line feeds are put behind a carriage return of its
own that follows a line end. -/
theorem hasBlankRun_collapseBlankLines_iff {newline text : Text} (ending : IsLineEnd newline) :
    HasBlankRun (collapseBlankLines newline text) ↔ newline = ['\n'] ∧ HasReturnRun text := by
  constructor
  · intro left
    by_contra kept
    exact not_hasBlankRun_collapseBlankLines ending (fun single has => kept ⟨single, has⟩) left
  · rintro ⟨rfl, has⟩
    exact hasBlankRun_collapseBlankLines has

end Layout

end TagLift
