import TagLift.Proofs.Print.Removal
import TagLift.Proofs.Print.Zones

/-!
# Structural edits that fit

Edits fit a list of zones if they insert text at clear offsets only and remove text inside the
zones, one edit a zone at most and in their order. The edits of a list of statements fit its zones
if the new list is a revision of the old one: imports were dropped, statements without a span were
added, and all other statements stayed with edits that fit.
-/

namespace TagLift

namespace Print

/-- Edits that insert at clear offsets, or remove text inside zones in the order of these. -/
inductive Fits (source : Text) (clear : Nat → Prop) : List Span → List Edit → Prop where
  | nil : Fits source clear [] []
  | skip (zone : Span) {zones : List Span} {edits : List Edit}
      (rest : Fits source clear zones edits) : Fits source clear (zone :: zones) edits
  | insertion {position : Nat} (text : Text) (here : clear position) {zones : List Span}
      {edits : List Edit} (rest : Fits source clear zones edits) :
      Fits source clear zones (.insert position text :: edits)
  | removal {zone : Span} {edit : Edit} (removes : edit.start < edit.stop)
      (valid : edit.inBounds source) (lower : zone.start ≤ edit.start)
      (upper : edit.stop ≤ zone.stop) {zones : List Span} {edits : List Edit}
      (rest : Fits source clear zones edits) : Fits source clear (zone :: zones) (edit :: edits)

namespace Fits

variable {source : Text} {clear : Nat → Prop} {zones others : List Span}
  {edits more : List Edit}

theorem nothing (zones : List Span) : Fits source clear zones [] := by
  induction zones with
  | nil => exact .nil
  | cons zone zones ih => exact .skip zone ih

theorem append (first : Fits source clear zones edits) (second : Fits source clear others more) :
    Fits source clear (zones ++ others) (edits ++ more) := by
  induction first with
  | nil => exact second
  | skip zone _ ih => exact .skip zone ih
  | insertion text here _ ih => exact .insertion text here ih
  | removal removes valid lower upper _ ih => exact .removal removes valid lower upper ih

theorem flatMap {α : Type} {items : List α} {zonesOf : α → List Span} {editsOf : α → List Edit}
    (each : ∀ item ∈ items, Fits source clear (zonesOf item) (editsOf item)) :
    Fits source clear (items.flatMap zonesOf) (items.flatMap editsOf) := by
  induction items with
  | nil => exact .nil
  | cons item items ih =>
      simp only [List.flatMap_cons]
      exact (each item (by simp)).append (ih fun other member => each other (by simp [member]))

/-- Every edit inserts at a clear offset, or removes text inside a zone. -/
theorem cases_of_mem (fits : Fits source clear zones edits) {edit : Edit} (member : edit ∈ edits) :
    edit.start = edit.stop ∧ clear edit.start ∨
      edit.start < edit.stop ∧ edit.inBounds source ∧
        ∃ zone ∈ zones, zone.start ≤ edit.start ∧ edit.stop ≤ zone.stop := by
  induction fits with
  | nil => cases member
  | skip zone _ ih =>
      refine (ih member).imp id ?_
      rintro ⟨removes, valid, other, inside, bounds⟩
      exact ⟨removes, valid, other, List.mem_cons_of_mem _ inside, bounds⟩
  | insertion text here _ ih =>
      rcases List.mem_cons.1 member with rfl | later
      · exact .inl ⟨rfl, here⟩
      · exact ih later
  | removal removes valid lower upper _ ih =>
      rcases List.mem_cons.1 member with rfl | later
      · exact .inr ⟨removes, valid, _, List.mem_cons_self, lower, upper⟩
      · refine (ih later).imp id ?_
        rintro ⟨removes, valid, other, inside, bounds⟩
        exact ⟨removes, valid, other, List.mem_cons_of_mem _ inside, bounds⟩

/-- In zones that follow each other, what edits remove keeps apart. -/
theorem pairwise_removals (fits : Fits source clear zones edits)
    (order : zones.Pairwise fun a b => a.stop ≤ b.start) :
    (edits.filter fun edit => edit.start < edit.stop).Pairwise Edit.Apart := by
  induction fits with
  | nil => exact .nil
  | skip zone _ ih => exact ih (List.pairwise_cons.1 order).2
  | insertion text here _ ih =>
      rw [List.filter_cons_of_neg (by simp [Edit.insert])]
      exact ih order
  | removal removes valid lower upper rest ih =>
      obtain ⟨first, order⟩ := List.pairwise_cons.1 order
      rw [List.filter_cons_of_pos (by simpa using removes)]
      refine List.pairwise_cons.2 ⟨fun other member => ?_, ih order⟩
      obtain ⟨member, removes'⟩ := List.mem_filter.1 member
      rcases rest.cases_of_mem member with ⟨empty, -⟩ | ⟨-, -, zone, inside, lower', -⟩
      · simp [empty] at removes'
      · have := first zone inside
        exact .inl (by omega)

end Fits

section Gap

variable {page : Page} {drops : Stmt → Bool} {clear : Nat → Prop}

/-- An import that is dropped, with a span of the source that is not empty. -/
def Page.Erasable (page : Page) (drops : Stmt → Bool) (stmt : Stmt) : Prop :=
  (stmt.isUse && drops stmt) = true ∧ ∃ span, stmt.span? = some span ∧ span.start < span.stop ∧
    Text.isBoundary span.start page.source ∧ Text.isBoundary span.stop page.source

theorem fits_deleteStmt {stmt : Stmt} (erasable : page.Erasable drops stmt) :
    Fits page.source clear (page.zones drops stmt) (page.deleteStmt stmt) := by
  obtain ⟨dropped, span, spanned, filled, start, stop⟩ := erasable
  have left := page.leftMargin_lineSpan start
  have right := page.rightMargin_lineSpan stop
  have removes : (page.lineSpan span).start < (page.lineSpan span).stop :=
    Nat.lt_of_le_of_lt left.order (Nat.lt_of_lt_of_le filled right.order)
  simp only [zones_of_dropped spanned dropped, Page.deleteStmt, spanned]
  exact .removal removes (Edit.inBounds_iff.2 ⟨Nat.le_of_lt removes, left.boundary, right.boundary⟩)
    (Nat.le_refl _) (Nat.le_refl _) .nil

theorem fits_replacement {stmt : Stmt} {span : Span} (text : Text)
    (erasable : page.Erasable drops stmt) (spanned : stmt.span? = some span) :
    Fits page.source clear (page.zones drops stmt) [⟨span.start, span.stop, text⟩] := by
  obtain ⟨dropped, span', spanned', filled, start, stop⟩ := erasable
  obtain rfl : span' = span := Option.some.inj (spanned'.symm.trans spanned)
  have left := page.leftMargin_lineSpan start
  have right := page.rightMargin_lineSpan stop
  rw [zones_of_dropped spanned dropped]
  exact .removal filled (Edit.inBounds_iff.2 ⟨Nat.le_of_lt filled, start, stop⟩) left.order
    right.order .nil

/-- A gap fits the zones of its imports if statements are inserted at a clear offset. -/
theorem fits_fillGap {container : Container} {prev next : Option Stmt} {deleted added : List Stmt}
    (erasable : ∀ stmt ∈ deleted, page.Erasable drops stmt)
    (anchored : deleted = [] → added ≠ [] →
      clear (page.insertStmts container prev next added).start) :
    Fits page.source clear (deleted.flatMap (page.zones drops))
      (page.fillGap container prev next deleted added) := by
  cases deleted with
  | nil =>
      cases added with
      | nil => exact .nil
      | cons stmt added =>
          have here := anchored rfl (by simp)
          have empty := start_insertStmts page container prev next (stmt :: added)
          simp only [Page.fillGap, List.flatMap_nil]
          generalize page.insertStmts container prev next (stmt :: added) = edit at here empty
          obtain ⟨start, stop, text⟩ := edit
          obtain rfl : start = stop := empty
          exact .insertion text here .nil
  | cons first rest =>
      have delete : Fits page.source clear (rest.flatMap (page.zones drops))
          (rest.flatMap page.deleteStmt) :=
        .flatMap fun stmt member => fits_deleteStmt (erasable stmt (by simp [member]))
      cases added with
      | nil => exact (fits_deleteStmt (erasable first (by simp))).append delete
      | cons stmt added =>
          obtain ⟨-, span, spanned, -⟩ := erasable first (by simp)
          simp only [Page.fillGap, spanned]
          exact (fits_replacement _ (erasable first (by simp)) spanned).append delete

end Gap

/-- The new list is the old one with imports dropped, statements without a span added, and all
others kept with edits that fit. Statements are added behind a kept one only if the source is clear
there. -/
inductive Revised (page : Page) (drops : Stmt → Bool) (clear : Nat → Prop) :
    List Stmt → List Stmt → Prop where
  | nil : Revised page drops clear [] []
  | drop {stmt : Stmt} (erasable : page.Erasable drops stmt) {olds news : List Stmt}
      (rest : Revised page drops clear olds news) : Revised page drops clear (stmt :: olds) news
  | add {stmt : Stmt} (new : stmt.span? = none) {olds news : List Stmt}
      (rest : Revised page drops clear olds news) : Revised page drops clear olds (stmt :: news)
  | keep {old new : Stmt} {span : Span} (spanned : old.span? = some span)
      (same : new.span? = some span) (stays : (old.isUse && drops old) = false)
      {olds news : List Stmt} (fits : Fits page.source clear
        (old.leaves.flatMap (page.zones drops)) (page.diffStmt old new))
      (stops : (∀ stmt ∈ news, stmt.span?.isSome) ∨ clear span.stop)
      (rest : Revised page drops clear olds news) :
      Revised page drops clear (old :: olds) (new :: news)

/-- Revisions side by side, if nothing is added in the second one. -/
theorem Revised.append {page : Page} {drops : Stmt → Bool} {clear : Nat → Prop}
    {olds news olds' news' : List Stmt} (first : Revised page drops clear olds news)
    (second : Revised page drops clear olds' news') (quiet : ∀ stmt ∈ news', stmt.span?.isSome) :
    Revised page drops clear (olds ++ olds') (news ++ news') := by
  induction first with
  | nil => exact second
  | drop erasable _ ih => exact .drop erasable ih
  | add new _ ih => exact .add new ih
  | keep spanned same stays fits stops _ ih =>
      refine .keep spanned same stays fits (stops.imp (fun quietHere stmt member => ?_) id) ih
      rcases List.mem_append.1 member with here | there
      · exact quietHere stmt here
      · exact quiet stmt there

/-- Statements that are still to be added have a clear place: behind the last kept statement, or
else in front of the next one. -/
def Anchored (drops : Stmt → Bool) (clear : Nat → Prop) (prev : Option Stmt)
    (olds added news : List Stmt) : Prop :=
  (added = [] ∧ ∀ stmt ∈ news, stmt.span?.isSome) ∨
    match prev with
    | some stmt => ∃ span, stmt.span? = some span ∧ clear span.stop
    | none => (∃ stmt ∈ olds, (stmt.isUse && drops stmt) = false) ∧
        ∀ stmt ∈ olds, (stmt.isUse && drops stmt) = false →
          ∀ span, stmt.span? = some span → clear span.start

theorem splitAtSpan_append {span : Span} {before after : List Stmt} {stmt : Stmt}
    (others : ∀ other ∈ before, other.span? ≠ some span) (here : stmt.span? = some span) :
    Page.splitAtSpan (some span) (before ++ stmt :: after) = some (before, stmt, after) := by
  induction before with
  | nil => simp [Page.splitAtSpan, here]
  | cons other before ih =>
      have differs := others other (by simp)
      rw [List.cons_append, Page.splitAtSpan, if_neg (by simp [differs]),
        ih fun later member => others later (by simp [member])]
      rfl

theorem splitAtSpan_none (olds : List Stmt) : Page.splitAtSpan none olds = none := by
  induction olds with
  | nil => rfl
  | cons stmt olds ih => simp [Page.splitAtSpan, ih]

theorem flatMap_zones_of_erasable {page : Page} {drops : Stmt → Bool} {stmts : List Stmt}
    (erasable : ∀ stmt ∈ stmts, page.Erasable drops stmt) :
    (stmts.flatMap fun stmt => stmt.leaves.flatMap (page.zones drops)) =
      stmts.flatMap (page.zones drops) := by
  refine List.flatMap_congr fun stmt member => ?_
  have use := (erasable stmt member).1
  cases stmt with
  | uses => exact List.flatMap_singleton _ _
  | nspace | classLike | enclosing | inclusion | declare | other => cases use

/-- Where statements are inserted in front of a kept one. -/
theorem Anchored.clear_insertStmts (page : Page) {drops : Stmt → Bool} {clear : Nat → Prop}
    {prev : Option Stmt} {stmt : Stmt} {span : Span} {olds added news : List Stmt}
    (anchored : Anchored drops clear prev (stmt :: olds) added news) (filled : added ≠ [])
    (spanned : stmt.span? = some span) (stays : (stmt.isUse && drops stmt) = false)
    (container : Container) :
    clear (page.insertStmts container prev (some stmt) added).start := by
  rcases anchored with ⟨empty, -⟩ | placed
  · exact absurd empty filled
  · cases prev with
    | none =>
        have here := placed.2 stmt (by simp) stays span spanned
        simpa [Page.insertStmts, spanned, Edit.insert] using here
    | some before =>
        obtain ⟨span', spanned', here⟩ := placed
        simpa [Page.insertStmts, spanned', Edit.insert] using here

/-- Dropping an import moves no statement that is still to be added. -/
theorem Anchored.drop {page : Page} {drops : Stmt → Bool} {clear : Nat → Prop}
    {prev : Option Stmt} {stmt : Stmt} {olds added news : List Stmt}
    (anchored : Anchored drops clear prev (stmt :: olds) added news)
    (dropped : page.Erasable drops stmt) : Anchored drops clear prev olds added news := by
  refine anchored.imp id fun placed => ?_
  cases prev with
  | none =>
      obtain ⟨⟨kept, member, stays⟩, starts⟩ := placed
      refine ⟨⟨kept, ?_, stays⟩, fun other member => starts other (by simp [member])⟩
      rcases List.mem_cons.1 member with rfl | later
      · rw [dropped.1] at stays
        cases stays
      · exact later
  | some before => exact placed

/-- The edits of a revision fit its zones. -/
theorem Revised.fits {page : Page} {drops : Stmt → Bool} {clear : Nat → Prop}
    {olds news : List Stmt} (revised : Revised page drops clear olds news) (container : Container)
    {prev : Option Stmt} {pending added : List Stmt}
    (erasable : ∀ stmt ∈ pending, page.Erasable drops stmt)
    (distinct : (pending ++ olds).Pairwise fun a b => a.span? ≠ b.span?)
    (anchored : Anchored drops clear prev olds added news) :
    Fits page.source clear
      ((pending ++ olds).flatMap fun stmt => stmt.leaves.flatMap (page.zones drops))
      (page.diffStmts container prev (pending ++ olds) added news) := by
  -- Dropped imports wait in `pending` for the gap to end at the next kept statement.
  induction revised generalizing prev pending added with
  | nil =>
      rw [List.append_nil, flatMap_zones_of_erasable erasable]
      refine fits_fillGap erasable fun _ filled => ?_
      rcases anchored with ⟨empty, -⟩ | placed
      · exact absurd empty filled
      · cases prev with
        | none => simp at placed
        | some before =>
            obtain ⟨span, spanned, here⟩ := placed
            simpa [Page.insertStmts, spanned, Edit.insert] using here
  | @drop stmt dropped olds news rest ih =>
      rw [← List.singleton_append, ← List.append_assoc] at distinct ⊢
      refine ih ?_ distinct ?_
      · intro other member
        rcases List.mem_append.1 member with before | here
        · exact erasable other before
        · rw [List.mem_singleton.1 here]
          exact dropped
      · exact anchored.drop dropped
  | @add stmt new olds news rest ih =>
      rw [diffStmts_cons, new, splitAtSpan_none]
      refine ih erasable distinct ?_
      rcases anchored with ⟨-, quiet⟩ | placed
      · have spanned := quiet stmt (by simp)
        simp [new] at spanned
      · exact .inr placed
  | @keep old new span spanned same stays olds news fits stops rest ih =>
      obtain ⟨-, later, apart⟩ := List.pairwise_append.1 distinct
      have others : ∀ other ∈ pending, other.span? ≠ some span := by
        intro other member
        rw [← spanned]
        exact apart other member old (by simp)
      have gap : Fits page.source clear (pending.flatMap (page.zones drops))
          (page.fillGap container prev (some old) pending added) :=
        fits_fillGap erasable fun _ filled =>
          anchored.clear_insertStmts page filled spanned stays container
      have behind : Fits page.source clear
          (olds.flatMap fun stmt => stmt.leaves.flatMap (page.zones drops))
          (page.diffStmts container (some old) olds [] news) := by
        refine ih (fun _ member => absurd member List.not_mem_nil) (List.pairwise_cons.1 later).2 ?_
        exact stops.imp (fun quiet => ⟨rfl, quiet⟩) fun here => ⟨span, spanned, here⟩
      rw [diffStmts_cons, same, splitAtSpan_append others spanned, List.flatMap_append,
        List.flatMap_cons, flatMap_zones_of_erasable erasable, ← List.append_assoc]
      exact (gap.append fits).append behind

/-- The edits of a whole list fit its zones. -/
theorem Revised.fits_whole {page : Page} {drops : Stmt → Bool} {clear : Nat → Prop}
    {olds news : List Stmt} (revised : Revised page drops clear olds news) (container : Container)
    (distinct : olds.Pairwise fun a b => a.span? ≠ b.span?)
    (anchored : Anchored drops clear none olds [] news) :
    Fits page.source clear (olds.flatMap fun stmt => stmt.leaves.flatMap (page.zones drops))
      (page.diffStmts container none olds [] news) :=
  revised.fits container (fun _ member => absurd member List.not_mem_nil) distinct anchored

end Print

end TagLift
