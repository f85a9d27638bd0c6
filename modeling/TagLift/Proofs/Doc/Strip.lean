import TagLift.Doc.Strip
import TagLift.Proofs.Text.Split

/-!
# What stripping leaves

Stripping keeps lines or drops them and never writes one, so the tags found afterwards were there
before. None of the inner lines that stay is a directive line of the kinds, and a doc comment
without such a line stays as it is; together they say that a second stripping has nothing to do.
-/

namespace TagLift

namespace DocLine

variable {kinds : List DirectiveKind}

/-- Fewer kinds take fewer lines. -/
theorem isDirectiveLine_mono {fewer : List DirectiveKind} (subset : fewer ⊆ kinds) {line : Text}
    (stays : isDirectiveLine kinds line = false) : isDirectiveLine fewer line = false := by
  simp only [isDirectiveLine, List.any_eq_false] at stays ⊢
  exact fun kind member => stays kind (subset member)

/-! ## Gaps -/

theorem settleGap_sublist (atEdge : Bool) (gap : List Text) :
    (settleGap kinds atEdge gap).Sublist gap := by
  simp only [settleGap]
  split
  · split
    · exact List.nil_sublist gap
    · exact (List.take_sublist 1 _).trans List.filter_sublist
  · exact List.Sublist.refl gap

/-- No line of a settled gap is a directive line. -/
theorem stays_of_mem_settleGap {atEdge : Bool} {gap : List Text} {line : Text}
    (member : line ∈ settleGap kinds atEdge gap) : isDirectiveLine kinds line = false := by
  simp only [settleGap] at member
  split at member
  · split at member
    · simp at member
    · have kept := List.mem_of_mem_take member
      simpa using (List.mem_filter.1 kept).2
  next untouched =>
    simp only [List.any_eq_true, not_exists, not_and, Bool.not_eq_true] at untouched
    exact untouched line member

theorem settleGap_of_stays {atEdge : Bool} {gap : List Text}
    (stay : ∀ line ∈ gap, isDirectiveLine kinds line = false) :
    settleGap kinds atEdge gap = gap := by
  have untouched : gap.any (isDirectiveLine kinds) = false := by simpa using stay
  simp [settleGap, untouched]

/-! ## Inner lines -/

theorem settle_sublist (atStart : Bool) (gap lines : List Text) :
    (settle kinds atStart gap lines).Sublist (gap ++ lines) := by
  induction lines generalizing atStart gap with
  | nil => simpa [settle] using settleGap_sublist true gap
  | cons line rest ih =>
      rw [settle]
      split
      · simpa using ih atStart (gap ++ [line])
      · exact (settleGap_sublist atStart gap).append ((ih false []).cons_cons line)

/-- No inner line that stays is a directive line. -/
theorem stays_of_mem_settle {atStart : Bool} {gap lines : List Text} {line : Text}
    (member : line ∈ settle kinds atStart gap lines) : isDirectiveLine kinds line = false := by
  induction lines generalizing atStart gap with
  | nil => exact stays_of_mem_settleGap member
  | cons first rest ih =>
      rw [settle] at member
      split at member
      · exact ih member
      next text =>
        simp only [Bool.or_eq_true, not_or, Bool.not_eq_true] at text
        rcases List.mem_append.1 member with inGap | inRest
        · exact stays_of_mem_settleGap inGap
        · rcases List.mem_cons.1 inRest with rfl | later
          · exact text.1
          · exact ih later

theorem settle_of_stays {atStart : Bool} {gap lines : List Text}
    (stay : ∀ line ∈ gap ++ lines, isDirectiveLine kinds line = false) :
    settle kinds atStart gap lines = gap ++ lines := by
  induction lines generalizing atStart gap with
  | nil => simpa [settle] using settleGap_of_stays (by simpa using stay)
  | cons line rest ih =>
      have gapStays : ∀ line ∈ gap, isDirectiveLine kinds line = false :=
        fun other member => stay other (by simp [member])
      have restStays : ∀ line ∈ [] ++ rest, isDirectiveLine kinds line = false := by
        intro other member
        exact stay other (by simp_all)
      rw [settle]
      split
      · rw [ih (by simpa using stay)]
        simp
      · rw [settleGap_of_stays gapStays, ih restStays]
        simp

/-- `new` is `old` without some lines, and every line left out is `gone`. -/
inductive LeavesOut (gone : Text → Prop) : List Text → List Text → Prop where
  | nil : LeavesOut gone [] []
  | keep (line : Text) {old new : List Text} (rest : LeavesOut gone old new) :
      LeavesOut gone (line :: old) (line :: new)
  | drop {line : Text} (out : gone line) {old new : List Text} (rest : LeavesOut gone old new) :
      LeavesOut gone (line :: old) new

namespace LeavesOut

variable {gone : Text → Prop}

theorem refl (lines : List Text) : LeavesOut gone lines lines := by
  induction lines with
  | nil => exact .nil
  | cons line lines ih => exact .keep line ih

theorem append {old new olds news : List Text} (first : LeavesOut gone old new)
    (second : LeavesOut gone olds news) : LeavesOut gone (old ++ olds) (new ++ news) := by
  induction first with
  | nil => exact second
  | keep line _ ih => exact .keep line ih
  | drop out _ ih => exact .drop out ih

theorem of_sublist {old new : List Text} (fewer : new.Sublist old)
    (all : ∀ line ∈ old, gone line) : LeavesOut gone old new := by
  induction fewer with
  | slnil => exact .nil
  | cons line _ ih =>
      exact .drop (all line (by simp)) (ih fun other member => all other (by simp [member]))
  | cons_cons line _ ih => exact .keep line (ih fun other member => all other (by simp [member]))

theorem imp_of_mem {other : Text → Prop} {old new : List Text}
    (out : LeavesOut gone old new) (imp : ∀ line ∈ old, gone line → other line) :
    LeavesOut other old new := by
  induction out with
  | nil => exact .nil
  | keep line _ ih => exact .keep line (ih fun other member => imp other (by simp [member]))
  | drop out _ ih =>
      exact .drop (imp _ (by simp) out) (ih fun other member => imp other (by simp [member]))

end LeavesOut

/-- Settling leaves out directive lines and empty lines only. -/
theorem leavesOut_settle (atStart : Bool) {gap : List Text} (lines : List Text)
    (removable : ∀ line ∈ gap, isDirectiveLine kinds line || isEmptyLine line) :
    LeavesOut (fun line => isDirectiveLine kinds line || isEmptyLine line) (gap ++ lines)
      (settle kinds atStart gap lines) := by
  induction lines generalizing atStart gap with
  | nil =>
      rw [List.append_nil]
      exact .of_sublist (settleGap_sublist true gap) removable
  | cons line rest ih =>
      rw [settle]
      split
      next here =>
        rw [List.append_cons]
        refine ih atStart fun other member => ?_
        rcases List.mem_append.1 member with inGap | this
        · exact removable other inGap
        · obtain rfl := List.mem_singleton.1 this
          exact here
      next =>
        exact (LeavesOut.of_sublist (settleGap_sublist atStart gap) removable).append
          (.keep line (ih false (List.forall_mem_nil _)))

/-! ## Whole comments -/

theorem stripLines_ne_nil {lines : List Text} (nonempty : lines ≠ []) :
    stripLines kinds lines ≠ [] := by
  match lines with
  | [_] => simp [stripLines]
  | _ :: _ :: _ => simp [stripLines]

/-- The first and the last line stay and the inner lines are settled. -/
theorem stripLines_append (first last : Text) (inner : List Text) :
    stripLines kinds (first :: inner ++ [last]) =
      first :: settle kinds true [] inner ++ [last] := by
  cases inner with
  | nil => simp [stripLines]
  | cons second rest =>
      have inner : (second :: rest ++ [last]).dropLast = second :: rest := List.dropLast_concat
      have final : (second :: rest ++ [last]).getLastD [] = last := List.getLastD_concat ..
      rw [List.cons_append] at inner final
      simp only [stripLines, List.cons_append, inner, final]

/-- Two or more lines are a first one, inner ones and a last one. -/
theorem exists_inner (first second : Text) (rest : List Text) :
    ∃ inner last, first :: second :: rest = first :: inner ++ [last] :=
  ⟨(second :: rest).dropLast, (second :: rest).getLast (by simp),
    by rw [List.cons_append, List.dropLast_concat_getLast]⟩

theorem stripLines_sublist (lines : List Text) : (stripLines kinds lines).Sublist lines := by
  match lines with
  | [] => exact List.Sublist.refl _
  | [_] => exact List.Sublist.refl _
  | first :: second :: rest =>
      obtain ⟨inner, last, split⟩ := exists_inner first second rest
      rw [split, stripLines_append]
      exact ((settle_sublist true [] inner).cons_cons first).append_right [last]

/-- Only inner lines are left out, and each is a directive line or empty. -/
theorem leavesOut_stripLines (lines : List Text) :
    LeavesOut (fun line => line ∈ lines.dropLast ∧ (isDirectiveLine kinds line || isEmptyLine line))
      lines (stripLines kinds lines) := by
  match lines with
  | [] => exact .nil
  | [_] => exact .refl _
  | first :: second :: rest =>
      obtain ⟨inner, last, split⟩ := exists_inner first second rest
      rw [split, stripLines_append, List.dropLast_concat]
      refine .append (.keep first ?_) (.refl [last])
      refine (leavesOut_settle true inner (List.forall_mem_nil _)).imp_of_mem ?_
      exact fun line member removable => ⟨List.mem_cons_of_mem first member, removable⟩

/-- What was stripped of some kinds has no line of them left to strip. -/
theorem stripLines_stripLines {fewer : List DirectiveKind} (subset : fewer ⊆ kinds)
    (lines : List Text) :
    stripLines fewer (stripLines kinds lines) = stripLines kinds lines := by
  match lines with
  | [] => rfl
  | [_] => rfl
  | first :: second :: rest =>
      obtain ⟨inner, last, split⟩ := exists_inner first second rest
      rw [split, stripLines_append, stripLines_append, settle_of_stays]
      · simp
      · intro line member
        exact isDirectiveLine_mono subset (stays_of_mem_settle (by simpa using member))

/-- Without kinds nothing is stripped. -/
@[simp] theorem stripLines_nil_kinds (lines : List Text) : stripLines [] lines = lines := by
  match lines with
  | [] => rfl
  | [_] => rfl
  | first :: second :: rest =>
      obtain ⟨inner, last, split⟩ := exists_inner first second rest
      rw [split, stripLines_append, settle_of_stays]
      · simp
      · simp [isDirectiveLine]

end DocLine

section Doc

variable (kinds : List DirectiveKind)

@[simp] theorem stripDirectives_nil_kinds (doc : Text) : stripDirectives [] doc = doc := by
  simp [stripDirectives]

/-- The lines of a stripped comment are the lines that stay. -/
theorem splitLines_stripDirectives (doc : Text) :
    (stripDirectives kinds doc).splitLines = DocLine.stripLines kinds doc.splitLines := by
  apply Text.splitLines_joinLines
  · exact DocLine.stripLines_ne_nil (doc.splitOn_ne_nil '\n')
  · intro line member
    exact Text.newline_notMem_of_mem_splitLines
      ((DocLine.stripLines_sublist doc.splitLines).subset member)

/-- A stripped comment starts as it did. -/
theorem head?_stripDirectives (doc : Text) : (stripDirectives kinds doc).head? = doc.head? := by
  rw [← congrArg List.head? (Text.joinLines_splitLines doc), stripDirectives]
  match doc.splitLines with
  | [] => rfl
  | [_] => rfl
  | first :: second :: rest =>
      obtain ⟨inner, last, split⟩ := DocLine.exists_inner first second rest
      rw [split, DocLine.stripLines_append, Text.joinLines, Text.joinLines, List.cons_append,
        List.cons_append, List.intercalate_cons_of_ne_nil (by simp),
        List.intercalate_cons_of_ne_nil (by simp)]
      cases first <;> rfl

/-- A second stripping, of the same or fewer kinds, changes nothing. -/
theorem stripDirectives_stripDirectives {kinds fewer : List DirectiveKind}
    (subset : fewer ⊆ kinds) (doc : Text) :
    stripDirectives fewer (stripDirectives kinds doc) = stripDirectives kinds doc := by
  rw [stripDirectives, splitLines_stripDirectives, DocLine.stripLines_stripLines subset,
    ← splitLines_stripDirectives, Text.joinLines_splitLines]

/-- Whatever line of a stripped comment is read was read before. -/
theorem lines_stripDirectives_sublist (doc : Text) :
    (Text.lines (stripDirectives kinds doc)).Sublist (Text.lines doc) := by
  simp only [Text.lines, splitLines_stripDirectives]
  match doc.splitLines with
  | [] => exact List.Sublist.refl _
  | [_] => exact List.Sublist.refl _
  | first :: second :: rest =>
      obtain ⟨inner, last, split⟩ := DocLine.exists_inner first second rest
      rw [split, DocLine.stripLines_append]
      simp only [List.dropLast_concat, List.getLastD_concat]
      exact (((DocLine.settle_sublist true [] inner).cons_cons first).map _).append_right _

namespace Directives

/-- `found` finds nothing that `others` does not find, in the same order. -/
structure Within (found others : Directives) : Prop where
  test : found.test = true → others.test = true
  groups : found.groups.Sublist others.groups
  covers : found.covers.Sublist others.covers
  dataProviders : found.dataProviders.Sublist others.dataProviders

/-- Stripping brings no directive to light. -/
theorem ofDoc_stripDirectives_within (doc : Text) :
    (ofDoc (stripDirectives kinds doc)).Within (ofDoc doc) := by
  have fewer := lines_stripDirectives_sublist kinds doc
  refine ⟨?_, fewer.flatMap _, fewer.flatMap _, fewer.flatMap _⟩
  simp only [ofDoc, List.any_eq_true]
  rintro ⟨line, member, occurs⟩
  exact ⟨line, fewer.subset member, occurs⟩

end Directives

end Doc

end TagLift
