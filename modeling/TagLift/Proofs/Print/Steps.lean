import TagLift.Proofs.Layout.Normalize
import TagLift.Proofs.Print.Fits
import TagLift.Proofs.Tree.Entries

/-!
# The steps of a comparison

What a comparison of two lists of statements does is written down step by step: it compares a
statement that stays with its old self, inserts new statements, puts them in place of an old one, or
deletes an old one. The edits of the comparison are those of its steps. New statements of a gap are
set out line by line in one edit, and every statement that is gone has one edit on its own lines.
-/

namespace TagLift

namespace Stmt

/-- Statements whose spans are not empty and follow each other. -/
structure FilledInOrder (stmts : List Stmt) : Prop extends InOrder stmts where
  filled : ∀ stmt ∈ stmts, ∀ span ∈ stmt.span?, span.start < span.stop

namespace FilledInOrder

variable {stmts others : List Stmt}

theorem exists_span (ordered : FilledInOrder stmts) {stmt : Stmt} (member : stmt ∈ stmts) :
    ∃ span, stmt.span? = some span ∧ span.start < span.stop := by
  obtain ⟨span, spanned⟩ := Option.isSome_iff_exists.1 (ordered.spanned stmt member)
  exact ⟨span, spanned, ordered.filled stmt member span spanned⟩

theorem exists_span_of_mem_middle {front back : List Stmt}
    (ordered : FilledInOrder (front ++ stmts ++ back)) :
    ∀ stmt ∈ stmts, ∃ span, stmt.span? = some span := by
  intro stmt member
  exact Option.isSome_iff_exists.1 (ordered.spanned stmt (by simp [member]))

theorem sublist (ordered : FilledInOrder others) (part : stmts.Sublist others) :
    FilledInOrder stmts where
  toInOrder := ordered.toInOrder.of_sublist (part.map span?)
  filled stmt member := ordered.filled stmt (part.subset member)

/-- What stands in front of a list of statements lies before what is in it. -/
theorem before (ordered : FilledInOrder (stmts ++ others)) {first second : Stmt}
    (isFirst : first ∈ stmts) (isSecond : second ∈ others) {left right : Span}
    (atFirst : first.span? = some left) (atSecond : second.span? = some right) :
    left.Before right :=
  (List.pairwise_append.1 ordered.inOrder).2.2 first isFirst second isSecond left atFirst right
    atSecond

end FilledInOrder

end Stmt

namespace Print

/-- One thing that a comparison of two lists of statements does. -/
inductive Step where
  /-- A statement that stays is compared with its old self. -/
  | compare (old new : Stmt)
  /-- New statements are written between old ones. -/
  | insert (added : List Stmt) (edit : Edit)
  /-- New statements are written in place of an old one. -/
  | replace (gone : Stmt) (added : List Stmt) (edit : Edit)
  /-- An old statement is deleted. -/
  | delete (gone : Stmt) (edit : Edit)

namespace Step

/-- The edits of a step. -/
def edits (page : Page) : Step → List Edit
  | .compare old new => page.diffStmt old new
  | .insert _ edit | .replace _ _ edit | .delete _ edit => [edit]

/-- The two statements that a step compares. -/
def compared? : Step → Option (Stmt × Stmt)
  | .compare old new => some (old, new)
  | .insert _ _ | .replace _ _ _ | .delete _ _ => none

/-- The old statement that a step takes out, and its edit. -/
def removed? : Step → Option (Stmt × Edit)
  | .replace gone _ edit | .delete gone edit => some (gone, edit)
  | .compare _ _ | .insert _ _ => none

/-- The new statements that a step writes, and its edit. -/
def written? : Step → Option (List Stmt × Edit)
  | .insert added edit | .replace _ added edit => some (added, edit)
  | .compare _ _ | .delete _ _ => none

end Step

namespace Page

variable (page : Page) (container : Container)

/-- The step that deletes a statement that came from the source. -/
def deleteSteps (stmt : Stmt) : List Step :=
  (page.deleteStmt stmt).map (.delete stmt)

/-- The steps for the deleted and added statements between two that stay. -/
def gapSteps (prev next : Option Stmt) (deleted added : List Stmt) : List Step :=
  match deleted, added with
  | [], [] => []
  | [], added => [.insert added (page.insertStmts container prev next added)]
  | deleted, [] => deleted.flatMap page.deleteSteps
  | first :: rest, added =>
      match first.span? with
      | some span =>
          .replace first added
              ⟨span.start, span.stop, page.renderBlock (lineIndent page.source span.start) added⟩ ::
            rest.flatMap page.deleteSteps
      | none => []

/-- The steps of the new statements against the old ones that are left, given the last statement
that stayed and the statements added since. -/
def steps (prev : Option Stmt) (old added : List Stmt) : List Stmt → List Step
  | [] => page.gapSteps container prev none old added
  | stmt :: rest =>
      match splitAtSpan stmt.span? old with
      | some (deleted, survivor, remaining) =>
          page.gapSteps container prev (some survivor) deleted added ++
            .compare survivor stmt :: steps (some survivor) remaining [] rest
      | none => steps prev old (added ++ [stmt]) rest

theorem flatMap_edits_deleteSteps (stmts : List Stmt) :
    (stmts.flatMap page.deleteSteps).flatMap (Step.edits page) = stmts.flatMap page.deleteStmt := by
  rw [List.flatMap_assoc]
  apply List.flatMap_congr
  intro stmt _
  rw [deleteSteps, List.flatMap_map]
  exact List.flatMap_singleton' _

theorem flatMap_edits_gapSteps (prev next : Option Stmt) (deleted added : List Stmt) :
    (page.gapSteps container prev next deleted added).flatMap (Step.edits page) =
      page.fillGap container prev next deleted added := by
  cases deleted with
  | nil =>
      cases added with
      | nil => rfl
      | cons stmt added => rfl
  | cons first rest =>
      cases added with
      | nil => exact page.flatMap_edits_deleteSteps (first :: rest)
      | cons stmt added =>
          cases here : first.span? with
          | none => simp only [gapSteps, fillGap, here, List.flatMap_nil]
          | some span =>
              simp only [gapSteps, fillGap, here]
              rw [List.flatMap_cons, flatMap_edits_deleteSteps]
              rfl

/-- The edits of a comparison are those of its steps. -/
theorem diffStmts_eq_flatMap_steps (prev : Option Stmt) (old added new : List Stmt) :
    page.diffStmts container prev old added new =
      (page.steps container prev old added new).flatMap (Step.edits page) := by
  induction new generalizing prev old added with
  | nil => exact (page.flatMap_edits_gapSteps container prev none old added).symm
  | cons stmt rest ih =>
      rw [diffStmts_cons, steps]
      cases splitAtSpan stmt.span? old with
      | none => exact ih prev old (added ++ [stmt])
      | some found =>
          obtain ⟨deleted, survivor, remaining⟩ := found
          simp only [List.flatMap_append, List.flatMap_cons, flatMap_edits_gapSteps, ← ih,
            Step.edits, List.append_assoc]

/-! ## Statements that are gone -/

/-- An edit takes out a statement: it covers its span, or its whole line if it is alone on it. -/
def TakesOut (stmt : Stmt) (edit : Edit) : Prop :=
  ∃ span, stmt.span? = some span ∧ (edit.span = span ∨ edit.span = page.lineSpan span)

variable {page container}

theorem TakesOut.onOwnLines {stmt : Stmt} {edit : Edit} (takes : page.TakesOut stmt edit) :
    ∃ span, stmt.span? = some span ∧ OnOwnLines page.source span edit.span := by
  obtain ⟨span, spanned, own | line⟩ := takes
  · exact ⟨span, spanned, own ▸ onOwnLines_self _ _⟩
  · exact ⟨span, spanned, line ▸ page.onOwnLines_lineSpan span⟩

theorem deleteSteps_of_span? {stmt : Stmt} {span : Span} (spanned : stmt.span? = some span) :
    page.deleteSteps stmt =
      [.delete stmt (.delete (page.lineSpan span).start (page.lineSpan span).stop)] := by
  rw [deleteSteps, deleteStmt, spanned]
  rfl

/-- What a step of a gap can be. -/
theorem mem_gapSteps_cases {prev next : Option Stmt} {deleted added : List Stmt} {step : Step}
    (member : step ∈ page.gapSteps container prev next deleted added) :
    (∃ stmt edit, step = .delete stmt edit ∧ stmt ∈ deleted ∧ page.TakesOut stmt edit) ∨
    (∃ first rest span, deleted = first :: rest ∧ first.span? = some span ∧ added ≠ [] ∧
      step = .replace first added
        ⟨span.start, span.stop, page.renderBlock (lineIndent page.source span.start) added⟩) ∨
    (deleted = [] ∧ added ≠ [] ∧
      step = .insert added (page.insertStmts container prev next added)) := by
  have delete : ∀ stmts ⊆ deleted, step ∈ stmts.flatMap page.deleteSteps →
      ∃ stmt edit, step = .delete stmt edit ∧ stmt ∈ deleted ∧ page.TakesOut stmt edit := by
    intro stmts subset inside
    obtain ⟨stmt, gone, inside⟩ := List.mem_flatMap.1 inside
    obtain ⟨edit, isEdit, rfl⟩ := List.mem_map.1 inside
    rw [deleteStmt] at isEdit
    split at isEdit
    next span spanned =>
      obtain rfl := List.mem_singleton.1 isEdit
      exact ⟨stmt, _, rfl, subset gone, span, spanned, .inr rfl⟩
    next => cases isEdit
  cases deleted with
  | nil =>
      cases added with
      | nil => cases member
      | cons stmt added => exact .inr (.inr ⟨rfl, by simp, List.mem_singleton.1 member⟩)
  | cons first rest =>
      cases added with
      | nil => exact .inl (delete (first :: rest) (List.Subset.refl _) member)
      | cons stmt added =>
          simp only [gapSteps] at member
          split at member
          next span spanned =>
            rcases List.mem_cons.1 member with rfl | later
            · exact .inr (.inl ⟨first, rest, span, rfl, spanned, by simp, rfl⟩)
            · exact .inl (delete rest (List.subset_cons_self first rest) later)
          next => cases member

section Gap

variable {prev next : Option Stmt} {deleted added : List Stmt}

theorem compare_notMem_gapSteps {old new : Stmt} :
    .compare old new ∉ page.gapSteps container prev next deleted added := by
  intro member
  rcases mem_gapSteps_cases member with
    ⟨stmt, edit, equal, -⟩ | ⟨first, rest, span, -, -, -, equal⟩ | ⟨-, -, equal⟩
  all_goals cases equal

theorem compared?_gapSteps :
    (page.gapSteps container prev next deleted added).filterMap Step.compared? = [] := by
  rw [List.filterMap_eq_nil_iff]
  intro step member
  cases step with
  | compare old new => exact absurd member compare_notMem_gapSteps
  | insert | replace | delete => rfl

theorem start_of_insert_mem_gapSteps {stmts : List Stmt} {edit : Edit}
    (member : .insert stmts edit ∈ page.gapSteps container prev next deleted added) :
    edit.start = edit.stop := by
  rcases mem_gapSteps_cases member with
    ⟨stmt, edit, equal, -⟩ | ⟨first, rest, span, -, -, -, equal⟩ | ⟨-, -, equal⟩
  · cases equal
  · cases equal
  · obtain ⟨rfl, rfl⟩ := Step.insert.inj equal
    exact start_insertStmts page container prev next stmts

theorem takesOut_of_removed? {step : Step} {stmt : Stmt} {edit : Edit}
    (member : step ∈ page.gapSteps container prev next deleted added)
    (removes : step.removed? = some (stmt, edit)) : page.TakesOut stmt edit := by
  rcases mem_gapSteps_cases member with
    ⟨gone, taken, rfl, -, takes⟩ | ⟨first, rest, span, -, spanned, -, rfl⟩ | ⟨-, -, rfl⟩
  · obtain ⟨rfl, rfl⟩ := Prod.mk.inj (Option.some.inj removes)
    exact takes
  · obtain ⟨rfl, rfl⟩ := Prod.mk.inj (Option.some.inj removes)
    exact ⟨span, spanned, .inl rfl⟩
  · cases removes

theorem written?_deleteSteps (stmts : List Stmt) :
    (stmts.flatMap page.deleteSteps).filterMap Step.written? = [] := by
  rw [List.filterMap_eq_nil_iff]
  intro step member
  obtain ⟨stmt, -, inside⟩ := List.mem_flatMap.1 member
  obtain ⟨edit, -, rfl⟩ := List.mem_map.1 inside
  rfl

theorem removed?_deleteSteps (spanned : ∀ stmt ∈ deleted, ∃ span, stmt.span? = some span) :
    ((deleted.flatMap page.deleteSteps).filterMap Step.removed?).map Prod.fst = deleted := by
  induction deleted with
  | nil => rfl
  | cons stmt rest ih =>
      obtain ⟨⟨span, here⟩, later⟩ := List.forall_mem_cons.1 spanned
      rw [List.flatMap_cons, deleteSteps_of_span? here, List.singleton_append]
      simp only [List.filterMap_cons, Step.removed?, List.map_cons, ih later]

variable (spanned : ∀ stmt ∈ deleted, ∃ span, stmt.span? = some span)

include spanned

/-- A gap takes out the statements that are gone, each in one step. -/
theorem removed?_gapSteps :
    ((page.gapSteps container prev next deleted added).filterMap Step.removed?).map Prod.fst =
      deleted := by
  cases deleted with
  | nil => cases added <;> rfl
  | cons first rest =>
      obtain ⟨⟨span, here⟩, later⟩ := List.forall_mem_cons.1 spanned
      cases added with
      | nil => exact removed?_deleteSteps spanned
      | cons stmt added =>
          simp only [gapSteps, here, List.filterMap_cons, Step.removed?, List.map_cons,
            removed?_deleteSteps later]

variable (page container prev next added) in
/-- A gap writes its new statements in one step, if there are any. -/
theorem written?_gapSteps :
    added = [] ∧ (page.gapSteps container prev next deleted added).filterMap Step.written? = [] ∨
      ∃ edit, (page.gapSteps container prev next deleted added).filterMap Step.written? =
        [(added, edit)] := by
  cases added with
  | nil =>
      cases deleted with
      | nil => exact .inl ⟨rfl, rfl⟩
      | cons first rest => exact .inl ⟨rfl, written?_deleteSteps (first :: rest)⟩
  | cons stmt added =>
      right
      cases deleted with
      | nil => exact ⟨_, rfl⟩
      | cons first rest =>
          obtain ⟨span, here⟩ := spanned first (by simp)
          simp only [gapSteps, here, List.filterMap_cons, Step.written?, written?_deleteSteps]
          exact ⟨_, rfl⟩

theorem flatMap_written?_gapSteps :
    ((page.gapSteps container prev next deleted added).filterMap Step.written?).flatMap Prod.fst =
      added := by
  rcases written?_gapSteps page container prev next added spanned with ⟨rfl, none⟩ | ⟨edit, one⟩
  · rw [none, List.flatMap_nil]
  · rw [one, List.flatMap_singleton]

theorem pairwise_written?_gapSteps {rel : List Stmt × Edit → List Stmt × Edit → Prop} :
    ((page.gapSteps container prev next deleted added).filterMap Step.written?).Pairwise rel := by
  rcases written?_gapSteps page container prev next added spanned with ⟨-, none⟩ | ⟨edit, one⟩
  · rw [none]
    exact .nil
  · rw [one]
    exact List.pairwise_singleton _ _

end Gap

/-! ## Statements that are written -/

end Page

/-- White space, or what a container indents with. -/
def Container.Fills (container : Container) (text : Text) : Prop :=
  ∀ c ∈ text, isBlank c ∨ c ∈ container.indent

namespace Container

variable {container : Container}

theorem fills_of_isAllBlank {text : Text} (blank : text.isAllBlank) : container.Fills text :=
  fun c member => .inl (List.all_eq_true.1 blank c member)

theorem fills_indent : container.Fills container.indent :=
  fun _ member => .inr member

theorem Fills.append {left right : Text} (first : container.Fills left)
    (second : container.Fills right) : container.Fills (left ++ right) := by
  intro c member
  rcases List.mem_append.1 member with inLeft | inRight
  · exact first c inLeft
  · exact second c inRight

end Container

namespace Page

/-- The text is statements in order, each on a line of its own, with white space around them. -/
def SetsOut (page : Page) (container : Container) (stmts : List Stmt) (text : Text) : Prop :=
  ∃ lead indent tail : Text, container.Fills lead ∧ container.Fills indent ∧ container.Fills tail ∧
    text = lead ++ (page.newline ++ indent).intercalate (stmts.map page.renderStmt) ++ tail

variable {page : Page}

theorem separator_of_isUse (indent : Text) {before after : Stmt} (use : before.isUse)
    (use' : after.isUse) : page.separator indent before after = page.newline ++ indent := by
  rw [separator, use, use']
  rfl

/-- Imports are set out one on a line. -/
theorem renderBlock_of_isUse (indent : Text) {added : List Stmt}
    (uses : ∀ stmt ∈ added, stmt.isUse) :
    page.renderBlock indent added =
      (page.newline ++ indent).intercalate (added.map page.renderStmt) := by
  induction added with
  | nil => rfl
  | cons stmt rest ih =>
      obtain ⟨use, later⟩ := List.forall_mem_cons.1 uses
      cases rest with
      | nil => simp [renderBlock, renderAfter]
      | cons second rest =>
          have block := ih later
          rw [renderBlock] at block
          rw [List.map_cons, List.map_cons, List.intercalate_cons_cons, ← List.map_cons, ← block,
            renderBlock, renderAfter, separator_of_isUse indent use (later second (by simp))]
          simp only [List.append_assoc]

theorem renderAfter_cons (indent : Text) (before stmt : Stmt) (rest : List Stmt) :
    page.renderAfter indent before (stmt :: rest) =
      page.separator indent before stmt ++ page.renderBlock indent (stmt :: rest) := by
  rw [renderAfter, renderBlock, List.append_assoc]

theorem exists_renderBefore_eq (indent : Text) (next : Stmt) {added : List Stmt}
    (uses : ∀ stmt ∈ added, stmt.isUse) (filled : added ≠ []) :
    ∃ last, page.renderBefore indent next added =
      (page.newline ++ indent).intercalate (added.map page.renderStmt) ++
        page.separator indent last next := by
  induction added with
  | nil => exact absurd rfl filled
  | cons stmt rest ih =>
      obtain ⟨use, later⟩ := List.forall_mem_cons.1 uses
      cases rest with
      | nil => exact ⟨stmt, by simp [renderBefore]⟩
      | cons second rest =>
          obtain ⟨last, equal⟩ := ih later (by simp)
          refine ⟨last, ?_⟩
          rw [List.map_cons, List.map_cons, List.intercalate_cons_cons, ← List.map_cons,
            renderBefore, equal, List.headD_cons,
            separator_of_isUse indent use (later second (by simp))]
          simp only [List.append_assoc]

section Written

variable (blank : page.newline.isAllBlank)

include blank

theorem isAllBlank_separator {indent : Text} (indents : indent.isAllBlank) (before after : Stmt) :
    (page.separator indent before after).isAllBlank := by
  rw [separator]
  split
  all_goals simp [blank, indents]

variable {container : Container} {added : List Stmt} (uses : ∀ stmt ∈ added, stmt.isUse)

include uses

/-- However imports are inserted, they are set out. -/
theorem setsOut_insertStmts (prev next : Option Stmt) (filled : added ≠ []) :
    page.SetsOut container added (page.insertStmts container prev next added).text := by
  rw [insertStmts]
  split
  next before span _ =>
    obtain ⟨first, rest, rfl⟩ := List.exists_cons_of_ne_nil filled
    have indents := isAllBlank_lineIndent page.source span.start
    refine ⟨_, _, [], Container.fills_of_isAllBlank
      (isAllBlank_separator blank indents before first), Container.fills_of_isAllBlank indents,
      Container.fills_of_isAllBlank rfl, ?_⟩
    rw [Edit.insert, renderAfter_cons, renderBlock_of_isUse _ uses, List.append_nil]
  next =>
    split
    next after span _ =>
      have indents := isAllBlank_lineIndent page.source span.start
      obtain ⟨last, equal⟩ := exists_renderBefore_eq
        (lineIndent page.source span.start) after uses filled
      exact ⟨[], _, _, Container.fills_of_isAllBlank rfl, Container.fills_of_isAllBlank indents,
        Container.fills_of_isAllBlank (isAllBlank_separator blank indents last after), equal⟩
    next =>
      have ends : container.Fills page.newline := Container.fills_of_isAllBlank blank
      rw [renderBlock_of_isUse _ uses]
      cases container.braced with
      | true =>
          exact ⟨_, _, _, ends.append Container.fills_indent, Container.fills_indent, ends, rfl⟩
      | false =>
          refine ⟨_, _, [], (ends.append ends).append Container.fills_indent,
            Container.fills_indent, Container.fills_of_isAllBlank rfl, ?_⟩
          rw [List.append_nil]
          rfl

/-- New imports of a gap are set out. -/
theorem setsOut_of_written? {prev next : Option Stmt} {deleted stmts : List Stmt} {step : Step}
    {edit : Edit} (member : step ∈ page.gapSteps container prev next deleted added)
    (writes : step.written? = some (stmts, edit)) :
    page.SetsOut container stmts edit.text := by
  rcases mem_gapSteps_cases member with
    ⟨gone, taken, rfl, -⟩ | ⟨first, rest, span, -, spanned, filled, rfl⟩ | ⟨-, filled, rfl⟩
  · cases writes
  · obtain ⟨rfl, rfl⟩ := Prod.mk.inj (Option.some.inj writes)
    refine ⟨[], _, [], Container.fills_of_isAllBlank rfl, Container.fills_of_isAllBlank
      (isAllBlank_lineIndent page.source span.start), Container.fills_of_isAllBlank rfl, ?_⟩
    rw [renderBlock_of_isUse _ uses, List.nil_append, List.append_nil]
  · obtain ⟨rfl, rfl⟩ := Prod.mk.inj (Option.some.inj writes)
    exact setsOut_insertStmts blank uses prev next filled

end Written

/-- New statements of a gap are written behind the statement before, and in front of the end of the
one that follows. -/
theorem bounds_of_written? {container : Container} {prev next : Option Stmt}
    {deleted added stmts : List Stmt} {step : Step} {edit : Edit}
    (ordered : Stmt.FilledInOrder (prev.toList ++ deleted ++ next.toList))
    (member : step ∈ page.gapSteps container prev next deleted added)
    (writes : step.written? = some (stmts, edit)) :
    (∀ stmt ∈ prev, ∀ span ∈ stmt.span?, span.stop ≤ edit.start) ∧
      ∀ stmt ∈ next, ∀ span ∈ stmt.span?, edit.start < span.stop := by
  rcases mem_gapSteps_cases member with
    ⟨gone, taken, rfl, -⟩ | ⟨first, rest, span, rfl, spanned, filled, rfl⟩ | ⟨rfl, filled, rfl⟩
  · cases writes
  · obtain ⟨rfl, rfl⟩ := Prod.mk.inj (Option.some.inj writes)
    have wide := ordered.filled first (by simp) span spanned
    constructor
    · intro stmt isPrev before atPrev
      have front := ordered.sublist (List.sublist_append_left _ _)
      exact front.before (Option.mem_toList.2 isPrev) List.mem_cons_self atPrev spanned
    · intro stmt isNext after atNext
      have listed := Option.mem_toList.2 isNext
      have behind : span.stop ≤ after.start := ordered.before (by simp) listed spanned atNext
      have wide' := ordered.filled stmt (List.mem_append_right _ listed) after atNext
      show span.start < after.stop
      omega
  · obtain ⟨rfl, rfl⟩ := Prod.mk.inj (Option.some.inj writes)
    cases prev with
    | some before =>
        obtain ⟨span, atPrev⟩ := Option.isSome_iff_exists.1 (ordered.spanned before (by simp))
        have place : (page.insertStmts container (some before) next added).start = span.stop := by
          simp [insertStmts, atPrev, Edit.insert]
        rw [place]
        constructor
        · intro stmt isPrev other atOther
          obtain rfl := Option.some.inj isPrev
          obtain rfl := Option.some.inj (atPrev.symm.trans atOther)
          exact Nat.le_refl _
        · intro stmt isNext after atNext
          have listed := Option.mem_toList.2 isNext
          have behind : span.stop ≤ after.start := ordered.before (by simp) listed atPrev atNext
          have wide := ordered.filled stmt (List.mem_append_right _ listed) after atNext
          omega
    | none =>
        constructor
        · intro stmt isPrev
          cases isPrev
        · intro stmt isNext span atNext
          obtain rfl := Option.mem_def.1 isNext
          have place : (page.insertStmts container none (some stmt) added).start = span.start := by
            simp [insertStmts, Option.mem_def.1 atNext, Edit.insert]
          rw [place]
          exact ordered.filled stmt (by simp) span atNext

end Page

end Print

end TagLift
