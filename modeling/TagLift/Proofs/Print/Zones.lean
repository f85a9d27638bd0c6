import TagLift.Print.Basic
import TagLift.Proofs.Edit.Apart
import TagLift.Proofs.Tree.Lined

/-!
# Zones of removal

What an edit of a migration removes lies in the doc comment of a declaration or on the lines of an
import. These zones follow each other in the source. Where nodes start and stop, and behind the
lines on which methods and classes end, an offset is clear of them.
-/

namespace TagLift

namespace Print

namespace Page

variable (page : Page)

theorem leftMargin_lineSpan {span : Span} (start : Text.isBoundary span.start page.source) :
    Text.LeftMargin page.source (page.lineSpan span).start span.start := by
  simp only [lineSpan]
  split
  next alone =>
    simp only [Bool.and_eq_true] at alone
    exact Text.leftMargin_lastLine start alone.1.2
  next => exact .refl start

theorem rightMargin_lineSpan {span : Span} (stop : Text.isBoundary span.stop page.source) :
    Text.RightMargin page.source span.stop (page.lineSpan span).stop := by
  simp only [lineSpan]
  split
  next alone =>
    simp only [Bool.and_eq_true] at alone
    split
    next more => exact Text.rightMargin_firstLine_newline stop alone.2 more
    next all => exact Text.rightMargin_firstLine stop alone.2 (by omega)
  next => exact .refl stop

/-- A blank line goes behind the line on which something ends. -/
theorem rightMargin_of_mem_blankLineAfter {position : Nat} {edit : Edit}
    (here : Text.isBoundary position page.source) (member : edit ∈ page.blankLineAfter position) :
    edit.start = edit.stop ∧ Text.RightMargin page.source position edit.start := by
  simp only [blankLineAfter] at member
  split at member
  · cases member
  next next nextLines rest =>
    split at member
    · cases member
    next proper =>
      simp only [Bool.or_eq_true, not_or, Bool.not_eq_true', Bool.not_eq_false] at proper
      obtain rfl := List.mem_singleton.1 member
      refine ⟨rfl, Text.rightMargin_firstLine_newline here proper.1.1 ?_⟩
      have := congrArg List.length rest
      simp only [List.length_drop, List.length_cons] at this
      omega

/-- Where the edits of a statement may remove text: on the lines of an import that is dropped, and
in the doc comments of a statement that is no import. -/
def zones (drops : Stmt → Bool) (stmt : Stmt) : List Span :=
  if stmt.isUse then
    if drops stmt then (stmt.span?.map page.lineSpan).toList else []
  else docSpans stmt.declarations

end Page

end Print

namespace Stmt

variable {source : Text} {root : Node}

namespace Stands

variable {span : Span} {stmt : Stmt}

theorem unique {other : Span} (stands : stmt.Stands source root span)
    (stands' : stmt.Stands source root other) : other = span :=
  Option.some.inj (stands'.spanned.symm.trans stands.spanned)

variable (formed : root.WellFormed source)
  (stands : stmt.Stands source root span)

include formed stands

theorem boundary_start : Text.isBoundary span.start source := by
  obtain ⟨node, inTree, equal⟩ := stands.starts
  rw [← equal]
  exact (formed.bounds node inTree).1

theorem boundary_stop : Text.isBoundary span.stop source := by
  obtain ⟨node, inTree, equal⟩ := stands.stops
  rw [← equal]
  exact (formed.bounds node inTree).2.1

end Stands

theorem isUse_of_declares {stmt : Stmt} {decl : Declaration}
    (declared : decl ∈ stmt.declarations) : stmt.isUse = false := by
  cases stmt with
  | uses => simp [declarations, classes] at declared
  | nspace | classLike | enclosing | inclusion | declare | other => rfl

/-- One statement lies in front of another one. -/
def Before (source : Text) (root : Node) (first second : Stmt) : Prop :=
  ∃ span span' : Span, first.Stands source root span ∧ second.Stands source root span' ∧
    (Node.Solid source span ∨ first.Opens source span) ∧ Node.Solid source span' ∧
    span.stop ≤ span'.start

theorem Before.span?_ne {first second : Stmt} (before : Before source root first second) :
    first.span? ≠ second.span? := by
  obtain ⟨span, span', stands, stands', -, solid, order⟩ := before
  intro same
  rw [stands.spanned, stands'.spanned, Option.some.injEq] at same
  have filled := solid.filled
  rw [same] at order
  omega

namespace Lined

variable {opening : Bool} {lo hi : Nat} {stmts : List Stmt}

theorem exists_stands (lined : Lined source root opening lo hi stmts) {stmt : Stmt}
    (member : stmt ∈ stmts) : ∃ span, stmt.Stands source root span ∧ lo ≤ span.start ∧
      (Node.Solid source span ∨ opening ∧ stmt.Opens source span) := by
  induction stmts generalizing opening lo with
  | nil => cases member
  | cons first stmts ih =>
      obtain ⟨span, starts, stands, solid, rest⟩ := lined
      rcases List.mem_cons.1 member with rfl | later
      · exact ⟨span, stands, starts, solid⟩
      · obtain ⟨span', stands', starts', solid' | ⟨impossible, -⟩⟩ := ih rest later
        · have := stands.order
          exact ⟨span', stands', by omega, .inl solid'⟩
        · cases impossible

theorem pairwise_before (lined : Lined source root opening lo hi stmts) :
    stmts.Pairwise (Before source root) := by
  induction stmts generalizing opening lo with
  | nil => exact .nil
  | cons stmt stmts ih =>
      obtain ⟨span, starts, stands, solid, rest⟩ := lined
      refine List.pairwise_cons.2 ⟨fun later member => ?_, ih rest⟩
      obtain ⟨span', stands', order, solid' | ⟨impossible, -⟩⟩ := rest.exists_stands member
      · exact ⟨span, span', stands, stands', solid.imp id And.right, solid', order⟩
      · cases impossible

/-- Of two statements one lies in front of the other, or they are the same. -/
theorem before_cases (lined : Lined source root opening lo hi stmts) {a b : Stmt}
    (memA : a ∈ stmts) (memB : b ∈ stmts) :
    a = b ∨ Before source root a b ∨ Before source root b a :=
  eq_or_rel_of_pairwise lined.pairwise_before memA memB

end Lined

end Stmt

namespace Print

/-- A boundary of a text that lies in the middle of no zone. -/
def Clear (source : Text) (zones : List Span) (position : Nat) : Prop :=
  Text.isBoundary position source ∧ ∀ zone ∈ zones, position ≤ zone.start ∨ zone.stop ≤ position

section Zones

variable {page : Page} {root : Node} {drops : Stmt → Bool}
  (formed : root.WellFormed page.source)

/-- A zone of a statement that is not dropped is a comment inside the statement. -/
theorem exists_comment_of_mem_zones {stmt : Stmt} {span zone : Span}
    (stands : stmt.Stands page.source root span) (stays : (stmt.isUse && drops stmt) = false)
    (member : zone ∈ page.zones drops stmt) :
    ∃ node ∈ root.nodes, node.kind = .comment ∧ zone = node.span ∧
      span.start ≤ zone.start ∧ zone.stop ≤ span.stop := by
  have member : zone ∈ docSpans stmt.declarations := by
    cases use : stmt.isUse <;> simp_all [Page.zones]
  have bounds := stands.placed.docs.bounds member
  obtain ⟨decl, inside, found⟩ := List.mem_filterMap.1 member
  obtain ⟨doc, has, spanned⟩ := Option.bind_eq_some_iff.1 found
  obtain ⟨node, inTree, kind, equal, -⟩ := (stands.placed.each decl inside).doc doc has
  refine ⟨node, inTree, kind, ?_, bounds.1, bounds.2.2⟩
  rw [equal, Option.some.injEq] at spanned
  exact spanned.symm

theorem zones_of_dropped {stmt : Stmt} {span : Span} (spanned : stmt.span? = some span)
    (dropped : (stmt.isUse && drops stmt) = true) :
    page.zones drops stmt = [page.lineSpan span] := by
  simp only [Bool.and_eq_true] at dropped
  simp [Page.zones, dropped, spanned]

/-- An offset is clear if it lies in the middle of no comment, and behind or in front of the zones
of other statements as a statement does that is nott dropped. -/
theorem clear_of_before {opening : Bool} {lo hi : Nat} {stmts : List Stmt}
    (lined : Stmt.Lined page.source root opening lo hi stmts) {stmt : Stmt} {position : Nat}
    (member : stmt ∈ stmts)
    (stays : (stmt.isUse && drops stmt) = false) (here : Text.isBoundary position page.source)
    (comments : ∀ node ∈ root.nodes, node.kind = .comment →
      position ≤ node.span.start ∨ node.span.stop ≤ position)
    (behind : ∀ other zone, Stmt.Before page.source root other stmt →
      zone ∈ page.zones drops other → zone.stop ≤ position)
    (ahead : ∀ other zone, Stmt.Before page.source root stmt other → zone ∈ page.zones drops other →
      position ≤ zone.start) :
    Clear page.source (stmts.flatMap (page.zones drops)) position := by
  refine ⟨here, fun zone inZones => ?_⟩
  obtain ⟨other, member', inZone⟩ := List.mem_flatMap.1 inZones
  rcases lined.before_cases member member' with rfl | before | after
  · obtain ⟨span, stands, -⟩ := lined.exists_stands member
    obtain ⟨node, inTree, kind, rfl, -⟩ := exists_comment_of_mem_zones stands stays inZone
    exact comments node inTree kind
  · exact .inl (ahead other zone before inZone)
  · exact .inr (behind other zone after inZone)

include formed

/-- A zone is code inside its statement with the margins of its lines. -/
theorem exists_core_of_mem_zones {stmt : Stmt} {span zone : Span}
    (stands : stmt.Stands page.source root span)
    (solid : Node.Solid page.source span ∨ stmt.Opens page.source span)
    (member : zone ∈ page.zones drops stmt) :
    ∃ core : Span, Node.Solid page.source core ∧ Text.isBoundary core.start page.source ∧
      Text.isBoundary core.stop page.source ∧ span.start ≤ core.start ∧ core.stop ≤ span.stop ∧
      Text.LeftMargin page.source zone.start core.start ∧
      Text.RightMargin page.source core.stop zone.stop := by
  cases dropped : stmt.isUse && drops stmt with
  | true =>
      have starts := stands.boundary_start formed
      have stops := stands.boundary_stop formed
      rw [zones_of_dropped stands.spanned dropped, List.mem_singleton] at member
      rw [member]
      refine ⟨span, ?_, starts, stops, Nat.le_refl _, Nat.le_refl _,
        page.leftMargin_lineSpan starts, page.rightMargin_lineSpan stops⟩
      rcases solid with filled | opens
      · exact filled
      · simp [opens.notUse] at dropped
  | false =>
      obtain ⟨node, inTree, kind, rfl, lower, upper⟩ :=
        exists_comment_of_mem_zones stands dropped member
      obtain ⟨starts, stops, -⟩ := formed.bounds node inTree
      exact ⟨node.span, formed.solid node inTree (.inl kind), starts, stops, lower, upper,
        .refl starts, .refl stops⟩

/-- Zones of a statement lie in front of those of a later one. -/
theorem zone_le_zone {first second : Stmt} (before : Stmt.Before page.source root first second)
    {zone zone' : Span} (member : zone ∈ page.zones drops first)
    (member' : zone' ∈ page.zones drops second) :
    zone.stop ≤ zone'.start := by
  obtain ⟨span, span', stands, stands', solid, solid', order⟩ := before
  obtain ⟨core, filled, -, stop, -, upper, -, right⟩ :=
    exists_core_of_mem_zones formed stands solid member
  obtain ⟨core', filled', start, -, lower, -, left, -⟩ :=
    exists_core_of_mem_zones formed stands' (.inl solid') member'
  exact right.le_leftMargin left stop start (by omega) filled.ends filled'.starts

variable {opening : Bool} {lo hi : Nat} {stmts : List Stmt}
  (lined : Stmt.Lined page.source root opening lo hi stmts)

include lined

/-- The zones of statements follow each other. -/
theorem pairwise_zones :
    (stmts.flatMap (page.zones drops)).Pairwise fun a b => a.stop ≤ b.start := by
  refine List.pairwise_flatMap.2 ⟨fun stmt member => ?_, ?_⟩
  · obtain ⟨span, stands, -⟩ := lined.exists_stands member
    simp only [Page.zones]
    split
    · split
      · rw [stands.spanned]
        exact List.pairwise_singleton _ _
      · exact .nil
    · exact stands.placed.docs.pairwise
  · exact lined.pairwise_before.imp fun before zone member zone' member' =>
      zone_le_zone formed before member member'

/-- An offset in or right behind some code of a statement that is not dropped is clear, if it lies
in the middle of no comment. -/
theorem clear_of_core {stmt : Stmt} {span core : Span} {position reach : Nat}
    (member : stmt ∈ stmts) (stays : (stmt.isUse && drops stmt) = false)
    (stands : stmt.Stands page.source root span) (solid : Node.Solid page.source core)
    (start : Text.isBoundary core.start page.source) (stop : Text.isBoundary core.stop page.source)
    (lower : span.start ≤ core.start) (upper : core.stop ≤ span.stop)
    (margin : Text.RightMargin page.source core.stop reach) (starts : core.start ≤ position)
    (stops : position ≤ reach) (here : Text.isBoundary position page.source)
    (comments : ∀ node ∈ root.nodes, node.kind = .comment →
      position ≤ node.span.start ∨ node.span.stop ≤ position) :
    Clear page.source (stmts.flatMap (page.zones drops)) position := by
  refine clear_of_before lined member stays here comments ?_ ?_
  · rintro other zone ⟨span', _, first, second, solid', -, order⟩ inZone
    rw [stands.unique second] at order
    obtain ⟨core', filled, -, stop', -, upper', -, right⟩ :=
      exists_core_of_mem_zones formed first solid' inZone
    have := right.le_leftMargin (.refl start) stop' start (by omega) filled.ends solid.starts
    omega
  · rintro other zone ⟨_, span', first, second, -, solid', order⟩ inZone
    rw [stands.unique first] at order
    obtain ⟨core', filled, start', -, lower', -, left, -⟩ :=
      exists_core_of_mem_zones formed second (.inl solid') inZone
    have := margin.le_leftMargin left stop start' (by omega) solid.ends filled.starts
    omega

/-- Where a statement starts that is not dropped, the source is clear. -/
theorem clear_start {stmt : Stmt} {span : Span} (member : stmt ∈ stmts)
    (stays : (stmt.isUse && drops stmt) = false) (stands : stmt.Stands page.source root span) :
    Clear page.source (stmts.flatMap (page.zones drops)) span.start := by
  have start := stands.boundary_start formed
  have stop := stands.boundary_stop formed
  have comments : ∀ node ∈ root.nodes, node.kind = .comment →
      span.start ≤ node.span.start ∨ node.span.stop ≤ span.start := by
    intro comment inTree kind
    obtain ⟨node, inTree', equal⟩ := stands.starts
    rw [← equal]
    exact formed.start_comment_cases inTree kind inTree'
  by_cases solid : Node.Solid page.source span
  · exact clear_of_core formed lined member stays stands solid start stop (Nat.le_refl _)
      (Nat.le_refl _) (.refl stop) (Nat.le_refl _) stands.order start comments
  -- Opening text comes first. A margin behind it reaches back to its start only over white space.
  refine clear_of_before lined member stays start comments ?_ ?_
  · rintro other zone ⟨_, _, -, second, -, filled, -⟩ -
    rw [stands.unique second] at filled
    exact absurd filled solid
  · rintro other zone ⟨_, span', first, second, filled | opens, solid', order⟩ inZone
    · rw [stands.unique first] at filled
      exact absurd filled solid
    · rw [stands.unique first] at opens order
      obtain ⟨core, -, start', -, lower, -, left, -⟩ :=
        exists_core_of_mem_zones formed second (.inl solid') inZone
      have := stands.order
      rcases opens.first with noBlank | ⟨filled, solidStart⟩
      · exact left.le_of_all start (by omega) noBlank
      · exact left.le_of_startsSolid start start' (by omega) solidStart

/-- Where a statement ends that is not dropped and no opening text, the source is clear. -/
theorem clear_stop {stmt : Stmt} {span : Span} (member : stmt ∈ stmts)
    (stays : (stmt.isUse && drops stmt) = false) (stands : stmt.Stands page.source root span)
    (solid : Node.Solid page.source span) :
    Clear page.source (stmts.flatMap (page.zones drops)) span.stop := by
  have start := stands.boundary_start formed
  have stop := stands.boundary_stop formed
  refine clear_of_core formed lined member stays stands solid start stop (Nat.le_refl _)
    (Nat.le_refl _) (.refl stop) stands.order (Nat.le_refl _) stop ?_
  intro comment inTree kind
  obtain ⟨node, inTree', equal⟩ := stands.stops
  rw [← equal]
  exact formed.stop_comment_cases inTree kind inTree'

section Declaration

variable {stmt : Stmt} {decl : Declaration} (member : stmt ∈ stmts)
  (declared : decl ∈ stmt.declarations)

include member declared

/-- An offset in or right behind a declaration is clear, if it lies in the middle of no comment. -/
theorem clear_of_declared {position reach : Nat}
    (margin : Text.RightMargin page.source decl.span.stop reach)
    (starts : decl.span.start ≤ position) (stops : position ≤ reach)
    (here : Text.isBoundary position page.source)
    (comments : ∀ node ∈ root.nodes, node.kind = .comment →
      position ≤ node.span.start ∨ node.span.stop ≤ position) :
    Clear page.source (stmts.flatMap (page.zones drops)) position := by
  obtain ⟨span, stands, -⟩ := lined.exists_stands member
  have inside := stands.placed.each decl declared
  obtain ⟨node, inTree, equal⟩ := inside.node
  obtain ⟨start, stop, -⟩ := formed.bounds node inTree
  rw [← equal] at start stop
  exact clear_of_core formed lined member (by simp [Stmt.isUse_of_declares declared]) stands
    inside.solid start stop inside.starts inside.stops margin starts stops here comments

/-- Where a declaration stops there is a boundary. -/
theorem boundary_of_declared : Text.isBoundary decl.span.stop page.source := by
  obtain ⟨span, stands, -⟩ := lined.exists_stands member
  obtain ⟨node, inTree, equal⟩ := (stands.placed.each decl declared).node
  rw [equal]
  exact (formed.bounds node inTree).2.1

/-- Where a node starts inside a declaration, the source is clear. -/
theorem clear_node_start {node : Node} (inTree : node ∈ root.nodes)
    (lower : decl.span.start ≤ node.span.start) (upper : node.span.start ≤ decl.span.stop) :
    Clear page.source (stmts.flatMap (page.zones drops)) node.span.start :=
  clear_of_declared formed lined member declared
    (.refl (boundary_of_declared formed lined member declared)) lower upper
    (formed.bounds node inTree).1
    fun _ inTree' kind => formed.start_comment_cases inTree' kind inTree

/-- Where a node stops inside a declaration, the source is clear. -/
theorem clear_node_stop {node : Node} (inTree : node ∈ root.nodes)
    (lower : decl.span.start ≤ node.span.stop) (upper : node.span.stop ≤ decl.span.stop) :
    Clear page.source (stmts.flatMap (page.zones drops)) node.span.stop :=
  clear_of_declared formed lined member declared
    (.refl (boundary_of_declared formed lined member declared)) lower upper
    (formed.bounds node inTree).2.1
    fun _ inTree' kind => formed.stop_comment_cases inTree' kind inTree

/-- Behind the line on which a declaration ends, the source is clear. -/
theorem clear_blankLineAfter {edit : Edit} (added : edit ∈ page.blankLineAfter decl.span.stop) :
    edit.start = edit.stop ∧ Clear page.source (stmts.flatMap (page.zones drops)) edit.start := by
  have stop := boundary_of_declared formed lined member declared
  obtain ⟨empty, margin⟩ := page.rightMargin_of_mem_blankLineAfter stop added
  obtain ⟨span, stands, -⟩ := lined.exists_stands member
  have inside := stands.placed.each decl declared
  have filled := inside.solid.filled
  have order := margin.order
  refine ⟨empty, clear_of_declared formed lined member declared margin (by omega) (Nat.le_refl _)
    margin.boundary ?_⟩
  intro comment inTree kind
  obtain ⟨node, inTree', equal⟩ := inside.node
  rcases formed.comment_cases inTree kind inTree' with before | after | nested
  · have start := (formed.bounds comment inTree).1
    have solid := formed.solid comment inTree (.inl kind)
    rw [← equal] at before
    exact .inl (margin.le_leftMargin (.refl start) stop start before inside.solid.ends solid.starts)
  · rw [← equal] at after
    exact .inr (by omega)
  · rw [← equal] at nested
    exact .inr (by omega)

end Declaration

end Zones

end Print

end TagLift
