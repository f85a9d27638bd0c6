import TagLift.Proofs.Print.Steps

/-!
# Comparing a list with a revision of it

A list of statements is revised: some go, those that stay get other doc texts and attribute groups,
and new imports come in between. The comparison of the old list with the new one follows such a
revision. It compares each statement that stays with its old self, takes out each one that goes by
an edit of its own, and writes the new imports in their order, at offsets that increase.
-/

namespace TagLift

/-! ## Revisions -/

/-- The same declaration, but for the text of its doc comment and its attribute groups. -/
structure Declaration.Retouched (old new : Declaration) : Prop where
  name : new.name = old.name
  span : new.span = old.span
  anchor : new.attributeAnchor = old.attributeAnchor
  doc : new.doc.map (·.span) = old.doc.map (·.span)

/-- The same class, but for doc texts and attribute groups. -/
structure ClassDecl.Retouched (old new : ClassDecl) : Prop where
  kind : new.kind = old.kind
  decl : old.decl.Retouched new.decl
  methods : List.Forall₂ Declaration.Retouched old.methods new.methods

/-- The same statement, but for doc texts and attribute groups. What a namespace owns is a list of
its own and may have been revised in any way. -/
inductive Stmt.Retouched : Stmt → Stmt → Prop where
  | same (stmt : Stmt) : Retouched stmt stmt
  | classLike {old new : ClassDecl} (decls : old.Retouched new) :
      Retouched (.classLike old) (.classLike new)
  | enclosing (span : Span) {old new : List ClassDecl}
      (classes : List.Forall₂ ClassDecl.Retouched old new) :
      Retouched (.enclosing span old) (.enclosing span new)
  | nspace (head : NamespaceHead) (old new : List Stmt) :
      Retouched (.nspace head old) (.nspace head new)

theorem Stmt.Retouched.span?_eq {old new : Stmt} (retouched : old.Retouched new) :
    new.span? = old.span? := by
  cases retouched with
  | same => rfl
  | classLike decls =>
      exact congrArg some (Declaration.fullSpan_congr decls.decl.span decls.decl.doc)
  | enclosing => rfl
  | nspace => rfl

namespace Print

/-- What becomes of one statement when a list is revised: an old one stays or goes, or a new one
comes. -/
inductive Revision where
  | keep (old new : Stmt)
  | drop (old : Stmt)
  | add (new : Stmt)

namespace Revision

/-- The old statement. -/
def old? : Revision → Option Stmt
  | .keep old _ | .drop old => some old
  | .add _ => none

/-- The statement of the new list. -/
def new? : Revision → Option Stmt
  | .keep _ new | .add new => some new
  | .drop _ => none

/-- An old statement that stays, with what it becomes. -/
def kept? : Revision → Option (Stmt × Stmt)
  | .keep old new => some (old, new)
  | .drop _ | .add _ => none

/-- An old statement that goes. -/
def dropped? : Revision → Option Stmt
  | .drop old => some old
  | .keep _ _ | .add _ => none

/-- A new statement that comes. -/
def added? : Revision → Option Stmt
  | .add new => some new
  | .keep _ _ | .drop _ => none

/-- Statements that stay are retouched, and those that come are imports without a span. -/
def Proper : Revision → Prop
  | .keep old new => old.Retouched new
  | .drop _ => True
  | .add new => new.isUse ∧ new.span? = none

theorem append_olds_drop (front : List Stmt) (old : Stmt) (script : List Revision) :
    front ++ (drop old :: script).filterMap old? = front ++ [old] ++ script.filterMap old? :=
  List.append_cons front old _

theorem dropped_sublist_olds (script : List Revision) :
    (script.filterMap dropped?).Sublist (script.filterMap old?) := by
  induction script with
  | nil => exact .slnil
  | cons revision script ih =>
      cases revision with
      | keep old new => exact ih.cons old
      | drop old => exact ih.cons_cons old
      | add new => exact ih

end Revision

/-! ## Steps of a revision -/

namespace Page

variable (page : Page) (container : Container)

/-- The steps that follow a revision, given the last statement that stayed and the statements that
went and came since. -/
def revisionSteps (prev : Option Stmt) (gone added : List Stmt) : List Revision → List Step
  | [] => page.gapSteps container prev none gone added
  | .keep old new :: rest =>
      page.gapSteps container prev (some old) gone added ++
        .compare old new :: revisionSteps (some old) [] [] rest
  | .drop old :: rest => revisionSteps prev (gone ++ [old]) added rest
  | .add new :: rest => revisionSteps prev gone (added ++ [new]) rest

variable {page container} {prev : Option Stmt} {gone added : List Stmt} {script : List Revision}

/-- The comparison of an old list with a revision of it follows the revision. -/
theorem steps_eq_revisionSteps (proper : ∀ revision ∈ script, revision.Proper)
    (ordered : Stmt.FilledInOrder (gone ++ script.filterMap Revision.old?)) :
    page.steps container prev (gone ++ script.filterMap Revision.old?) added
        (script.filterMap Revision.new?) =
      page.revisionSteps container prev gone added script := by
  -- What goes waits in `gone` and what comes waits in `added` until a statement stays.
  induction script generalizing prev gone added with
  | nil => simp only [List.filterMap_nil, List.append_nil, steps, revisionSteps]
  | cons revision script ih =>
      obtain ⟨here, later⟩ := List.forall_mem_cons.1 proper
      cases revision with
      | keep old new =>
          have isOld : old ∈ gone ++ (Revision.keep old new :: script).filterMap Revision.old? := by
            simp [Revision.old?]
          obtain ⟨span, atOld, wide⟩ := ordered.exists_span isOld
          have atNew : new.span? = some span := here.span?_eq.trans atOld
          have others : ∀ other ∈ gone, other.span? ≠ some span := by
            intro other member atOther
            have before : span.stop ≤ span.start :=
              ordered.before member List.mem_cons_self atOther atOld
            omega
          have rest := ordered.sublist ((List.sublist_cons_self old _).trans
            (List.sublist_append_right gone _))
          simp only [List.filterMap_cons, Revision.old?, Revision.new?, steps, revisionSteps, atNew,
            splitAtSpan_append others atOld]
          rw [← ih later rest, List.nil_append]
      | drop old =>
          rw [Revision.append_olds_drop] at ordered ⊢
          exact ih later ordered
      | add new =>
          simp only [List.filterMap_cons, Revision.old?, Revision.new?, steps, revisionSteps,
            here.2, splitAtSpan_none] at ordered ⊢
          exact ih later ordered

/-- What a step that follows a revision can be. -/
theorem mem_revisionSteps_cases {step : Step}
    (member : step ∈ page.revisionSteps container prev gone added script) :
    (∃ old new, .keep old new ∈ script ∧ step = .compare old new) ∨
    ∃ prev' next gone' added', step ∈ page.gapSteps container prev' next gone' added' ∧
      ∀ stmt ∈ added', stmt ∈ added ∨ .add stmt ∈ script := by
  fun_induction revisionSteps page container prev gone added script with
  | case1 => exact .inr ⟨_, _, _, _, member, fun stmt inside => .inl inside⟩
  | case2 prev gone added old new rest ih =>
      rcases List.mem_append.1 member with inGap | behind
      · exact .inr ⟨_, _, _, _, inGap, fun stmt inside => .inl inside⟩
      · rcases List.mem_cons.1 behind with rfl | later
        · exact .inl ⟨old, new, List.mem_cons_self, rfl⟩
        · rcases ih later with ⟨old', new', kept, equal⟩ | ⟨_, _, _, _, inGap, from'⟩
          · exact .inl ⟨old', new', List.mem_cons_of_mem _ kept, equal⟩
          · refine .inr ⟨_, _, _, _, inGap, fun stmt inside => .inr ?_⟩
            rcases from' stmt inside with waits | comes
            · cases waits
            · exact List.mem_cons_of_mem _ comes
  | case3 prev gone added old rest ih =>
      rcases ih member with ⟨old', new', kept, equal⟩ | ⟨_, _, _, _, inGap, from'⟩
      · exact .inl ⟨old', new', List.mem_cons_of_mem _ kept, equal⟩
      · exact .inr ⟨_, _, _, _, inGap, fun stmt inside =>
          (from' stmt inside).imp id (List.mem_cons_of_mem _)⟩
  | case4 prev gone added new rest ih =>
      rcases ih member with ⟨old', new', kept, equal⟩ | ⟨_, _, _, _, inGap, from'⟩
      · exact .inl ⟨old', new', List.mem_cons_of_mem _ kept, equal⟩
      · refine .inr ⟨_, _, _, _, inGap, fun stmt inside => ?_⟩
        rcases from' stmt inside with waits | comes
        · rcases List.mem_append.1 waits with before | here
          · exact .inl before
          · obtain rfl := List.mem_singleton.1 here
            exact .inr List.mem_cons_self
        · exact .inr (List.mem_cons_of_mem _ comes)

theorem compared?_revisionSteps :
    (page.revisionSteps container prev gone added script).filterMap Step.compared? =
      script.filterMap Revision.kept? := by
  fun_induction revisionSteps page container prev gone added script with
  | case1 => exact compared?_gapSteps
  | case2 prev gone added old new rest ih =>
      simp only [List.filterMap_append, compared?_gapSteps, List.nil_append, List.filterMap_cons,
        Step.compared?, Revision.kept?, ih]
  | case3 prev gone added old rest ih => exact ih
  | case4 prev gone added new rest ih => exact ih

/-- Each statement that goes is taken out in one step. -/
theorem removed?_revisionSteps
    (spanned : ∀ stmt ∈ gone ++ script.filterMap Revision.old?, ∃ span, stmt.span? = some span) :
    ((page.revisionSteps container prev gone added script).filterMap Step.removed?).map Prod.fst =
      gone ++ script.filterMap Revision.dropped? := by
  fun_induction revisionSteps page container prev gone added script with
  | case1 prev gone added =>
      rw [List.filterMap_nil, List.append_nil] at spanned ⊢
      exact removed?_gapSteps spanned
  | case2 prev gone added old new rest ih =>
      have here := (List.forall_mem_append.1 spanned).1
      have later := (List.forall_mem_cons.1 (List.forall_mem_append.1 spanned).2).2
      simp only [List.filterMap_append, List.map_append, removed?_gapSteps here,
        List.filterMap_cons, Step.removed?, Revision.dropped?, ih later, List.nil_append]
  | case3 prev gone added old rest ih =>
      rw [Revision.append_olds_drop] at spanned
      rw [ih spanned, List.append_assoc]
      rfl
  | case4 prev gone added new rest ih => exact ih spanned

/-- New statements are written in their order. -/
theorem written?_revisionSteps
    (spanned : ∀ stmt ∈ gone ++ script.filterMap Revision.old?, ∃ span, stmt.span? = some span) :
    ((page.revisionSteps container prev gone added script).filterMap Step.written?).flatMap
        Prod.fst = added ++ script.filterMap Revision.added? := by
  fun_induction revisionSteps page container prev gone added script with
  | case1 prev gone added =>
      rw [List.filterMap_nil, List.append_nil] at spanned ⊢
      exact flatMap_written?_gapSteps spanned
  | case2 prev gone added old new rest ih =>
      have here := (List.forall_mem_append.1 spanned).1
      have later := (List.forall_mem_cons.1 (List.forall_mem_append.1 spanned).2).2
      simp only [List.filterMap_append, List.flatMap_append, flatMap_written?_gapSteps here,
        List.filterMap_cons, Step.written?, Revision.added?, ih later, List.nil_append]
  | case3 prev gone added old rest ih =>
      rw [Revision.append_olds_drop] at spanned
      exact ih spanned
  | case4 prev gone added new rest ih =>
      rw [ih spanned, List.append_assoc]
      rfl

/-- New statements are written behind the last one that stayed, and at offsets that increase. -/
theorem ascending_revisionSteps
    (ordered : Stmt.FilledInOrder (prev.toList ++ gone ++ script.filterMap Revision.old?)) :
    (∀ stmts edit, (stmts, edit) ∈
        (page.revisionSteps container prev gone added script).filterMap Step.written? →
      ∀ stmt ∈ prev, ∀ span ∈ stmt.span?, span.stop ≤ edit.start) ∧
    ((page.revisionSteps container prev gone added script).filterMap Step.written?).Pairwise
      fun first second => first.2.start < second.2.start := by
  fun_induction revisionSteps page container prev gone added script with
  | case1 prev gone added =>
      have gap : Stmt.FilledInOrder (prev.toList ++ gone ++ (none : Option Stmt).toList) := ordered
      have spanned := gap.exists_span_of_mem_middle
      constructor
      · intro stmts edit member
        obtain ⟨step, inGap, writes⟩ := List.mem_filterMap.1 member
        exact (bounds_of_written? gap inGap writes).1
      · exact pairwise_written?_gapSteps spanned
  | case2 prev gone added old new rest ih =>
      have listed : prev.toList ++ gone ++ (Revision.keep old new :: rest).filterMap Revision.old? =
          prev.toList ++ gone ++ [old] ++ rest.filterMap Revision.old? := by
        simp [Revision.old?]
      rw [listed] at ordered
      have gap : Stmt.FilledInOrder (prev.toList ++ gone ++ (some old).toList) :=
        ordered.sublist (List.sublist_append_left _ _)
      have isOld : old ∈ prev.toList ++ gone ++ (some old).toList := by simp
      obtain ⟨span, atOld, wide⟩ := gap.exists_span isOld
      have spanned := gap.exists_span_of_mem_middle
      have tail : Stmt.FilledInOrder ((some old).toList ++ [] ++ rest.filterMap Revision.old?) := by
        apply ordered.sublist
        exact (List.sublist_append_right _ _).append_right _
      obtain ⟨behind, increasing⟩ := ih tail
      rw [List.filterMap_append, List.filterMap_cons_none rfl]
      constructor
      · intro stmts edit member stmt isPrev left atPrev
        rcases List.mem_append.1 member with inGap | later
        · obtain ⟨step, inGap, writes⟩ := List.mem_filterMap.1 inGap
          exact (bounds_of_written? gap inGap writes).1 stmt isPrev left atPrev
        · have front : left.stop ≤ span.start := by
            refine gap.before ?_ (List.mem_singleton_self old) atPrev atOld
            exact List.mem_append_left _ (Option.mem_toList.2 isPrev)
          have starts := behind stmts edit later old rfl span atOld
          omega
      · rw [List.pairwise_append]
        refine ⟨pairwise_written?_gapSteps spanned, increasing, ?_⟩
        rintro ⟨stmts, edit⟩ inGap ⟨stmts', edit'⟩ later
        obtain ⟨step, inGap, writes⟩ := List.mem_filterMap.1 inGap
        calc edit.start
          _ < span.stop := (bounds_of_written? gap inGap writes).2 old rfl span atOld
          _ ≤ edit'.start := behind stmts' edit' later old rfl span atOld
  | case3 prev gone added old rest ih =>
      rw [Revision.append_olds_drop, List.append_assoc prev.toList] at ordered
      exact ih ordered
  | case4 prev gone added new rest ih => exact ih ordered

/-! ## One edit for each statement that goes -/

theorem lineSpan_cases (page : Page) (span : Span) :
    page.lineSpan span = span ∨
      Text.isBoundary span.start page.source ∧ Text.isBoundary span.stop page.source := by
  simp only [lineSpan]
  split
  next alone =>
    simp only [Bool.and_eq_true] at alone
    exact .inr alone.1.1
  next => exact .inl rfl

end Page

end Print

/-- Whether an edit covers a span. -/
def Edit.covers (edit : Edit) (span : Span) : Bool :=
  edit.start ≤ span.start && span.stop ≤ edit.stop

theorem Edit.covers_iff {edit : Edit} {span : Span} :
    edit.covers span ↔ edit.start ≤ span.start ∧ span.stop ≤ edit.stop := by
  simp [covers]

namespace Print

namespace Page

variable {page : Page}

theorem TakesOut.covers {stmt : Stmt} {edit : Edit} {span : Span}
    (takes : page.TakesOut stmt edit) (spanned : stmt.span? = some span) : edit.covers span := by
  obtain ⟨own, atStmt, lines⟩ := takes.onOwnLines
  obtain rfl := Option.some.inj (atStmt.symm.trans spanned)
  exact Edit.covers_iff.2 ⟨lines.starts, lines.stops⟩

/-- An edit that takes out a statement covers no other one, unless that is white space. -/
theorem TakesOut.isAllBlank_of_covers {stmt : Stmt} {edit : Edit} {own span : Span}
    (takes : page.TakesOut stmt edit) (atStmt : stmt.span? = some own)
    (apart : own.Before span ∨ span.Before own) (wide : span.start < span.stop)
    (covers : edit.covers span) : (span.slice page.source).isAllBlank := by
  obtain ⟨starts, stops⟩ := Edit.covers_iff.1 covers
  have outside : edit.span ≠ own := by
    intro same
    have start : edit.start = own.start := congrArg Span.start same
    have stop : edit.stop = own.stop := congrArg Span.stop same
    rcases apart with before | after
    · have order : own.stop ≤ span.start := before
      omega
    · have order : span.stop ≤ own.start := after
      omega
  obtain ⟨own', atStmt', same | line⟩ := takes
  · obtain rfl := Option.some.inj (atStmt'.symm.trans atStmt)
    exact absurd same outside
  · obtain rfl := Option.some.inj (atStmt'.symm.trans atStmt)
    have start : edit.start = (page.lineSpan own').start := congrArg Span.start line
    have stop : edit.stop = (page.lineSpan own').stop := congrArg Span.stop line
    rcases page.lineSpan_cases own' with same | ⟨first, last⟩
    · exact absurd (line.trans same) outside
    · -- The other statement would have to lie in the margin on one side.
      rw [start] at starts
      rw [stop] at stops
      rw [Text.isAllBlank, List.all_eq_true]
      intro c member
      rcases apart with before | after
      · have margin := page.rightMargin_lineSpan last
        have inner := Text.slice_sublist_slice last before (Nat.le_of_lt wide) stops
        exact List.all_eq_true.1 margin.blank c (inner.subset member)
      · have margin := page.leftMargin_lineSpan first
        have inner := Text.slice_sublist_slice margin.boundary starts (Nat.le_of_lt wide) after
        exact List.all_eq_true.1 margin.blank c (inner.subset member)

/-- Of the edits that take out statements in order, one covers a statement that is more than white
space. -/
theorem filter_covers_removals {removals : List (Stmt × Edit)}
    (ordered : Stmt.FilledInOrder (removals.map Prod.fst))
    (takes : ∀ removal ∈ removals, page.TakesOut removal.1 removal.2) {stmt : Stmt} {edit : Edit}
    (member : (stmt, edit) ∈ removals) {span : Span} (spanned : stmt.span? = some span)
    (solid : ¬ (span.slice page.source).isAllBlank) :
    removals.filter (fun removal => removal.2.covers span) = [(stmt, edit)] := by
  obtain ⟨front, back, rfl⟩ := List.append_of_mem member
  have wide := ordered.filled stmt (by simp) span spanned
  have here : edit.covers span := (takes (stmt, edit) member).covers spanned
  rw [List.map_append, List.map_cons] at ordered
  have noFront : front.filter (fun removal => removal.2.covers span) = [] := by
    rw [List.filter_eq_nil_iff]
    intro removal listed covers
    have removes := takes removal (List.mem_append_left _ listed)
    have ⟨own, atOther, _⟩ := removes
    have before : own.Before span :=
      ordered.before (List.mem_map_of_mem listed) List.mem_cons_self atOther spanned
    exact solid (removes.isAllBlank_of_covers atOther (.inl before) wide covers)
  have noBack : back.filter (fun removal => removal.2.covers span) = [] := by
    rw [List.filter_eq_nil_iff]
    intro removal listed covers
    have removes := takes removal (List.mem_append_right _ (List.mem_cons_of_mem _ listed))
    have ⟨own, atOther, _⟩ := removes
    have behind : Stmt.FilledInOrder ([stmt] ++ back.map Prod.fst) :=
      ordered.sublist (List.sublist_append_right _ _)
    have after : span.Before own :=
      behind.before (List.mem_singleton_self _) (List.mem_map_of_mem listed) spanned atOther
    exact solid (removes.isAllBlank_of_covers atOther (.inr after) wide covers)
  simp only [List.filter_append, List.filter_cons, here, if_true, noFront, noBack, List.nil_append]

/-- The edits of steps that cover a span take out statements, if no edit inside a statement that
stays covers it. -/
theorem filter_covers_edits {steps : List Step} {span : Span} (wide : span.start < span.stop)
    (inserts : ∀ added edit, .insert added edit ∈ steps → edit.start = edit.stop)
    (inner : ∀ old new, .compare old new ∈ steps →
      ∀ edit ∈ page.diffStmt old new, edit.covers span = false) :
    (steps.flatMap (Step.edits page)).filter (·.covers span) =
      ((steps.filterMap Step.removed?).filter fun removal => removal.2.covers span).map
        Prod.snd := by
  induction steps with
  | nil => rfl
  | cons step steps ih =>
      have rest := ih (fun added edit member => inserts added edit (List.mem_cons_of_mem _ member))
        fun old new member => inner old new (List.mem_cons_of_mem _ member)
      rw [List.flatMap_cons, List.filter_append, rest]
      cases step with
      | compare old new =>
          have none : (page.diffStmt old new).filter (·.covers span) = [] := by
            rw [List.filter_eq_nil_iff]
            intro edit member
            exact Bool.eq_false_iff.1 (inner old new List.mem_cons_self edit member)
          rw [Step.edits, none]
          rfl
      | insert added edit =>
          have empty := inserts added edit List.mem_cons_self
          have none : edit.covers span = false := by
            apply Bool.eq_false_iff.2
            intro covers
            obtain ⟨starts, stops⟩ := Edit.covers_iff.1 covers
            omega
          rw [Step.edits, List.filter_cons_of_neg (by simp [none])]
          rfl
      | replace gone added edit =>
          cases covers : edit.covers span <;> simp [Step.edits, Step.removed?, covers]
      | delete gone edit =>
          cases covers : edit.covers span <;> simp [Step.edits, Step.removed?, covers]

/-! ## The whole comparison -/

section Steps

variable {container : Container} {script : List Revision}

theorem takesOut_of_mem_revisionSteps {removal : Stmt × Edit}
    (member : removal ∈ (page.revisionSteps container none [] [] script).filterMap Step.removed?) :
    page.TakesOut removal.1 removal.2 := by
  obtain ⟨step, inSteps, removes⟩ := List.mem_filterMap.1 member
  rcases mem_revisionSteps_cases inSteps with ⟨old, new, -, rfl⟩ | ⟨_, _, _, _, inGap, -⟩
  · cases removes
  · exact takesOut_of_removed? inGap removes

theorem setsOut_of_mem_revisionSteps (blank : page.newline.isAllBlank)
    (proper : ∀ revision ∈ script, revision.Proper) {stmts : List Stmt} {edit : Edit}
    (member : (stmts, edit) ∈
      (page.revisionSteps container none [] [] script).filterMap Step.written?) :
    page.SetsOut container stmts edit.text := by
  obtain ⟨step, inSteps, writes⟩ := List.mem_filterMap.1 member
  rcases mem_revisionSteps_cases inSteps with ⟨old, new, -, rfl⟩ | ⟨_, _, _, _, inGap, comes⟩
  · cases writes
  · refine setsOut_of_written? blank ?_ inGap writes
    intro stmt waits
    rcases comes stmt waits with none | added
    · cases none
    · exact (proper _ added).1

/-- One edit of a comparison covers a statement that goes. -/
theorem filter_covers_revisionSteps
    (ordered : Stmt.FilledInOrder (script.filterMap Revision.old?)) {stmt : Stmt} {edit : Edit}
    (member : (stmt, edit) ∈
      (page.revisionSteps container none [] [] script).filterMap Step.removed?) {span : Span}
    (atStmt : stmt.span? = some span) (solid : ¬ (span.slice page.source).isAllBlank)
    (inner : ∀ old new, .keep old new ∈ script → ∀ edit ∈ page.diffStmt old new,
      edit.covers span = false) :
    ((page.revisionSteps container none [] [] script).flatMap (Step.edits page)).filter
      (·.covers span) = [edit] := by
  have removals : Stmt.FilledInOrder (((page.revisionSteps container none [] [] script).filterMap
      Step.removed?).map Prod.fst) := by
    rw [removed?_revisionSteps fun stmt isOld =>
      Option.isSome_iff_exists.1 (ordered.spanned stmt isOld)]
    exact ordered.sublist (Revision.dropped_sublist_olds script)
  have wide := removals.filled stmt (List.mem_map_of_mem member) span atStmt
  have takes : ∀ removal ∈ (page.revisionSteps container none [] [] script).filterMap
      Step.removed?, page.TakesOut removal.1 removal.2 := fun _ => takesOut_of_mem_revisionSteps
  rw [filter_covers_edits wide, filter_covers_removals removals takes member atStmt solid]
  · rfl
  · intro added inserted isStep
    rcases mem_revisionSteps_cases isStep with ⟨old, new, -, equal⟩ | ⟨_, _, _, _, inGap, -⟩
    · cases equal
    · exact start_of_insert_mem_gapSteps inGap
  · intro old new isStep
    rcases mem_revisionSteps_cases isStep with ⟨old', new', kept, equal⟩ | ⟨_, _, _, _, inGap, -⟩
    · obtain ⟨rfl, rfl⟩ := Step.compare.inj equal
      exact inner old new kept
    · exact absurd inGap compare_notMem_gapSteps

end Steps

/-- The steps of comparing the old list of a revision with the new one. -/
def comparison (page : Page) (container : Container) (script : List Revision) : List Step :=
  page.steps container none (script.filterMap Revision.old?) [] (script.filterMap Revision.new?)

/-- A comparison follows a revision. -/
structure Follows (page : Page) (container : Container) (script : List Revision) : Prop where
  edits : page.diffStmts container none (script.filterMap Revision.old?) []
    (script.filterMap Revision.new?) = (page.comparison container script).flatMap (Step.edits page)
  /-- The statements that stay are compared, each with its old self, and no others. -/
  compared : (page.comparison container script).filterMap Step.compared? =
    script.filterMap Revision.kept?
  /-- The statements that go are taken out, each by one edit. -/
  removed : ((page.comparison container script).filterMap Step.removed?).map Prod.fst =
    script.filterMap Revision.dropped?
  /-- That edit covers the statement and besides it white space of its own lines at most. -/
  covered : ∀ stmt edit, (stmt, edit) ∈ (page.comparison container script).filterMap Step.removed? →
    ∃ span, stmt.span? = some span ∧ OnOwnLines page.source span edit.span
  /-- No other edit covers the statement, unless it is white space or an edit inside a statement
  that stays does. -/
  once : ∀ stmt edit, (stmt, edit) ∈ (page.comparison container script).filterMap Step.removed? →
    ∀ span ∈ stmt.span?, ¬ (span.slice page.source).isAllBlank →
      (∀ old new, .keep old new ∈ script → ∀ inner ∈ page.diffStmt old new,
        inner.covers span = false) →
      (page.diffStmts container none (script.filterMap Revision.old?) []
        (script.filterMap Revision.new?)).filter (·.covers span) = [edit]
  /-- The new imports are written in their order, one edit for each run of them. -/
  written : ((page.comparison container script).filterMap Step.written?).flatMap Prod.fst =
    script.filterMap Revision.added?
  setOut : ∀ stmts edit, (stmts, edit) ∈ (page.comparison container script).filterMap
    Step.written? → page.SetsOut container stmts edit.text
  /-- The order of these edits is that of their offsets. -/
  ascending : ((page.comparison container script).filterMap Step.written?).Pairwise
    fun first second => first.2.start < second.2.start

/-- The comparison of an old list, whose statements are not empty and follow each other, with a list
that came from it by dropping statements, changing doc texts and attribute groups of the others, and
adding imports anywhere, follows that revision. -/
theorem follows_revision (source : Text) (container : Container) (script : List Revision)
    (proper : ∀ revision ∈ script, revision.Proper)
    (ordered : Stmt.FilledInOrder (script.filterMap Revision.old?)) :
    (ofSource source).Follows container script := by
  have whole : Stmt.FilledInOrder ([] ++ script.filterMap Revision.old?) := ordered
  have steps : (ofSource source).comparison container script =
      (ofSource source).revisionSteps container none [] [] script :=
    steps_eq_revisionSteps proper whole
  have spanned : ∀ stmt ∈ [] ++ script.filterMap Revision.old?, ∃ span, stmt.span? = some span :=
    fun stmt member => Option.isSome_iff_exists.1 (ordered.spanned stmt member)
  have edits := (ofSource source).diffStmts_eq_flatMap_steps container none
    (script.filterMap Revision.old?) [] (script.filterMap Revision.new?)
  have edits' := edits.trans (congrArg (List.flatMap (Step.edits (ofSource source))) steps)
  constructor
  case edits => exact edits
  case compared => rw [steps, compared?_revisionSteps]
  case removed =>
    rw [steps]
    exact removed?_revisionSteps spanned
  case covered =>
    rw [steps]
    intro stmt edit member
    exact (takesOut_of_mem_revisionSteps member).onOwnLines
  case once =>
    rw [steps]
    intro stmt edit member span atStmt solid inner
    rw [edits']
    exact filter_covers_revisionSteps ordered member atStmt solid inner
  case written =>
    rw [steps]
    exact written?_revisionSteps spanned
  case setOut =>
    rw [steps]
    intro stmts edit member
    exact setsOut_of_mem_revisionSteps (isAllBlank_newlineOf source) proper member
  case ascending =>
    rw [steps]
    exact (ascending_revisionSteps ordered).2

/-- Two imports give way to two others, a class is retouched, a statement gives way to an import,
and another import comes last. -/
theorem follows_revision_of_imports :
    ∃ (source : Text) (container : Container) (script : List Revision),
      (∀ revision ∈ script, revision.Proper) ∧
      Stmt.FilledInOrder (script.filterMap Revision.old?) ∧
      (ofSource source).diffStmts container none (script.filterMap Revision.old?) []
          (script.filterMap Revision.new?) =
        [⟨6, 12, "use A;\nuse B;".toList⟩, .delete 13 20, ⟨20, 28, "/** */".toList⟩,
          .insert 29 "#[G]\n".toList, ⟨40, 43, "use D;".toList⟩,
          .insert 47 "\n\nuse E;".toList] ∧
      (ofSource source).Follows container script := by
  let source := "<?php\nuse B;\nuse C;\n/** a */\nclass T \x7b\x7d\n$x;\n$y;\n".toList
  let cls (doc : String) (groups : List AttributeGroup) : ClassDecl :=
    ⟨.cls, ⟨['T'], ⟨29, 39⟩, 29, some ⟨some ⟨20, 28⟩, doc.toList⟩, groups⟩, []⟩
  let new (name : Char) : Revision := .add (.ofImport (.ofClass [name]))
  let script : List Revision :=
    [.drop (.uses (some ⟨6, 12⟩) [.ofClass ['B']]), new 'A', new 'B',
      .drop (.uses (some ⟨13, 19⟩) [.ofClass ['C']]),
      .keep (.classLike (cls "/** a */" [])) (.classLike (cls "/** */" [.single ⟨['G'], []⟩])),
      .drop (.other ⟨40, 43⟩), new 'D', .keep (.other ⟨44, 47⟩) (.other ⟨44, 47⟩), new 'E']
  have retouched : (cls "/** a */" []).Retouched (cls "/** */" [.single ⟨['G'], []⟩]) :=
    ⟨rfl, ⟨rfl, rfl, rfl, rfl⟩, .nil⟩
  have proper : ∀ revision ∈ script, revision.Proper := by
    simp only [script, new, List.forall_mem_cons]
    exact ⟨trivial, ⟨rfl, rfl⟩, ⟨rfl, rfl⟩, trivial, .classLike retouched, trivial, ⟨rfl, rfl⟩,
      .same _, ⟨rfl, rfl⟩, List.forall_mem_nil _⟩
  have ordered : Stmt.FilledInOrder (script.filterMap Revision.old?) := by
    refine ⟨⟨by decide, ?_⟩, by decide⟩
    simp only [Span.Before]
    decide
  exact ⟨source, ⟨5, [], false⟩, script, proper, ordered, by decide +kernel,
    follows_revision source _ script proper ordered⟩

/-- Two statements that are white space go from one line. Each edit takes out the whole line and
covers both of them, so `Follows.once` has to leave white space out. -/
theorem two_edits_cover_blank_statement :
    ∃ (source : Text) (container : Container) (gone other : Stmt) (span : Span),
      Stmt.FilledInOrder [gone, other] ∧ gone.span? = some span ∧
      (span.slice source).isAllBlank ∧
      ((ofSource source).diffStmts container none [gone, other] [] []).filter (·.covers span) =
        [.delete 6 9, .delete 6 9] := by
  refine ⟨"<?php\n  \n".toList, ⟨5, [], false⟩, .other ⟨6, 7⟩, .other ⟨7, 8⟩, ⟨6, 7⟩,
    ⟨⟨by decide, ?_⟩, by decide⟩, rfl, by decide, by decide +kernel⟩
  simp only [Span.Before]
  decide

/-- A statement goes that lies where a class that stays has its doc comment, and the comment
changed. Two edits cover it, so `Follows.once` has to ask for the edits inside statements that
stay. -/
theorem two_edits_cover_statement_at_doc :
    ∃ (source : Text) (container : Container) (gone old new : Stmt) (span : Span),
      Stmt.FilledInOrder [gone, old] ∧ old.Retouched new ∧ gone.span? = some span ∧
      ¬ (span.slice source).isAllBlank ∧
      ((ofSource source).diffStmts container none [gone, old] [] [new]).filter (·.covers span) =
        [.delete 6 10, ⟨6, 9, "/** */".toList⟩] := by
  let cls (doc : String) : ClassDecl :=
    ⟨.cls, ⟨['T'], ⟨10, 13⟩, 10, some ⟨some ⟨6, 9⟩, doc.toList⟩, []⟩, []⟩
  refine ⟨"<?php\n$x;\n$y;\n".toList, ⟨5, [], false⟩, .other ⟨6, 9⟩,
    .enclosing ⟨10, 13⟩ [cls "/** a */"], .enclosing ⟨10, 13⟩ [cls "/** */"], ⟨6, 9⟩,
    ⟨⟨by decide, ?_⟩, by decide⟩, .enclosing _ (.cons ⟨rfl, ⟨rfl, rfl, rfl, rfl⟩, .nil⟩ .nil), rfl,
    by decide, by decide +kernel⟩
  simp only [Span.Before]
  decide

end Page

end Print

end TagLift
