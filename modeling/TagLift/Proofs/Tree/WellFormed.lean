import TagLift.Proofs.Text.Margin
import TagLift.Tree.Lower
import Mathlib.Data.List.Pairwise

/-!
# Well-formed concrete trees

In a well-formed tree the spans of nodes cut no character, lie inside the parent's span and follow
each other in order. Comments have no nodes inside, and comments, methods, classes and statements
start and end with a character other than white space. Only inline text that opens the file may
be blank at its ends, and at its start only if no white space is in front.

Two nodes of such a tree are one inside the other or lie side by side, so no node starts or stops
in the middle of a comment.
-/

namespace TagLift

/-- Two members of a list in order are the same, or one comes before the other. -/
theorem eq_or_rel_of_pairwise {α : Type} {rel : α → α → Prop} {list : List α}
    (ordered : list.Pairwise rel) {a b : α} (memA : a ∈ list) (memB : b ∈ list) :
    a = b ∨ rel a b ∨ rel b a := by
  have : Std.Symm fun a b => a = b ∨ rel a b ∨ rel b a :=
    ⟨fun a b related => related.imp Eq.symm Or.symm⟩
  have related := ordered.imp (S := fun a b => a = b ∨ rel a b ∨ rel b a) fun before =>
    .inr (.inl before)
  exact related.forall_of_forall (fun member _ => .inl rfl) memA memB

namespace Node

mutual

/-- A node and all nodes inside it, in order. -/
def nodes : Node → List Node
  | ⟨kind, span, named, children⟩ => ⟨kind, span, named, children⟩ :: nodesOf children

/-- The nodes of trees side by side. -/
def nodesOf : List Node → List Node
  | [] => []
  | node :: rest => nodes node ++ nodesOf rest

end

theorem nodesOf_eq_flatMap (siblings : List Node) : nodesOf siblings = siblings.flatMap nodes := by
  induction siblings with
  | nil => rfl
  | cons node rest ih => rw [nodesOf, ih, List.flatMap_cons]

theorem mem_nodes {node other : Node} :
    other ∈ node.nodes ↔ other = node ∨ ∃ child ∈ node.children, other ∈ child.nodes := by
  obtain ⟨kind, span, named, children⟩ := node
  rw [nodes, List.mem_cons, nodesOf_eq_flatMap, List.mem_flatMap]

theorem self_mem_nodes (node : Node) : node ∈ node.nodes :=
  mem_nodes.2 (.inl rfl)

/-- What holds of a node if it holds of its children holds of all nodes. -/
theorem induction_on {motive : Node → Prop}
    (step : ∀ node, (∀ child ∈ node.children, motive child) → motive node) (node : Node) :
    motive node :=
  step node fun child _ => induction_on step child
termination_by sizeOf node
decreasing_by
  obtain ⟨kind, span, named, children⟩ := node
  have := List.sizeOf_lt_of_mem ‹child ∈ _›
  simp only [mk.sizeOf_spec] at this ⊢
  omega

theorem mem_nodes_trans {node middle other : Node} (inner : other ∈ middle.nodes)
    (outer : middle ∈ node.nodes) : other ∈ node.nodes := by
  induction node using induction_on with
  | step node ih =>
      rcases mem_nodes.1 outer with rfl | ⟨child, member, outer⟩
      · exact inner
      · exact mem_nodes.2 (.inr ⟨child, member, ih child member outer⟩)

theorem mem_nodes_of_mem_children {node parent child : Node} (outer : parent ∈ node.nodes)
    (member : child ∈ parent.children) : child ∈ node.nodes :=
  mem_nodes_trans (mem_nodes.2 (.inr ⟨child, member, child.self_mem_nodes⟩)) outer

/-- Nodes lie inside their parents, and siblings follow each other. -/
structure Nested (root : Node) : Prop where
  nested : ∀ node ∈ root.nodes, ∀ child ∈ node.children,
    node.span.start ≤ child.span.start ∧ child.span.stop ≤ node.span.stop
  ordered : ∀ node ∈ root.nodes, node.children.Pairwise fun a b => a.span.stop ≤ b.span.start

instance (root : Node) : Decidable (Nested root) :=
  decidable_of_iff (_ ∧ _)
    ⟨fun ⟨nested, ordered⟩ => ⟨nested, ordered⟩, fun tree => ⟨tree.nested, tree.ordered⟩⟩

/-- Nodes inside a node lie inside its span. -/
theorem Nested.inside {root : Node} (tree : Nested root) {node other : Node}
    (outer : node ∈ root.nodes) (inner : other ∈ node.nodes) :
    node.span.start ≤ other.span.start ∧ other.span.stop ≤ node.span.stop := by
  induction node using induction_on with
  | step node ih =>
      rcases mem_nodes.1 inner with rfl | ⟨child, member, inner⟩
      · exact ⟨Nat.le_refl _, Nat.le_refl _⟩
      · have here := tree.nested node outer child member
        have there := ih child member (mem_nodes_of_mem_children outer member) inner
        exact ⟨Nat.le_trans here.1 there.1, Nat.le_trans there.2 here.2⟩

/-- A span is not empty, and starts and ends with a character other than white space. -/
structure Solid (source : Text) (span : Span) : Prop where
  filled : span.start < span.stop
  starts : Text.startsSolid span.start source
  ends : Text.endsSolid span.stop source

instance (source : Text) (span : Span) : Decidable (Solid source span) :=
  decidable_of_iff (span.start < span.stop ∧ Text.startsSolid span.start source ∧
    Text.endsSolid span.stop source)
    ⟨fun ⟨filled, starts, ends⟩ => ⟨filled, starts, ends⟩,
      fun solid => ⟨solid.filled, solid.starts, solid.ends⟩⟩

/-- Whether a node is a statement among its siblings. -/
def isStatement (node : Node) : Bool :=
  node.kind == .nspace || (node.named && node.kind != .comment && node.kind != .openTag)

/-- The statements in the block of a namespace. -/
def blockStatements (node : Node) : List Node :=
  if node.kind = .nspace then
    (node.child? .block).toList.flatMap fun body => body.children.filter isStatement
  else []

/-- Whether a node is inline text that opens the file: no white space is in front of it, or it
starts with a character other than white space. -/
def opensFile (source : Text) (node : Node) : Bool :=
  node.kind == .literal && ((Text.takeBytes node.span.start source).all (!isBlank ·) ||
    decide (node.span.start < node.span.stop) && Text.startsSolid node.span.start source)

/-- What the tree of a source promises. -/
structure WellFormed (source : Text) (root : Node) : Prop where
  bounds : ∀ node ∈ root.nodes, Text.isBoundary node.span.start source ∧
    Text.isBoundary node.span.stop source ∧ node.span.start ≤ node.span.stop
  nested : ∀ node ∈ root.nodes, ∀ child ∈ node.children,
    node.span.start ≤ child.span.start ∧ child.span.stop ≤ node.span.stop
  ordered : ∀ node ∈ root.nodes, node.children.Pairwise fun a b => a.span.stop ≤ b.span.start
  leaf : ∀ node ∈ root.nodes, node.kind = .comment → node.children.isEmpty
  solid : ∀ node ∈ root.nodes,
    node.kind = .comment ∨ node.kind = .method ∨ node.classKind?.isSome → Solid source node.span
  first : ∀ node ∈ root.children.take 1, node.isStatement →
    Solid source node.span ∨ node.opensFile source
  later : ∀ node ∈ root.children.drop 1, node.isStatement → Solid source node.span
  inner : ∀ node ∈ root.children, ∀ child ∈ node.blockStatements, Solid source child.span

instance (source : Text) (root : Node) : Decidable (WellFormed source root) :=
  decidable_of_iff (_ ∧ _ ∧ _ ∧ _ ∧ _ ∧ _ ∧ _ ∧ _)
    ⟨fun ⟨bounds, nested, ordered, leaf, solid, first, later, inner⟩ =>
        ⟨bounds, nested, ordered, leaf, solid, first, later, inner⟩,
      fun formed => ⟨formed.bounds, formed.nested, formed.ordered, formed.leaf, formed.solid,
        formed.first, formed.later, formed.inner⟩⟩

namespace WellFormed

variable {source : Text} {root : Node} (formed : WellFormed source root)

include formed

theorem toNested : Nested root :=
  ⟨formed.nested, formed.ordered⟩

theorem inside {node other : Node} (outer : node ∈ root.nodes) (inner : other ∈ node.nodes) :
    node.span.start ≤ other.span.start ∧ other.span.stop ≤ node.span.stop :=
  formed.toNested.inside outer inner

/-- Two children of a node are the same or lie side by side. -/
theorem children_cases {node a b : Node} (outer : node ∈ root.nodes) (memA : a ∈ node.children)
    (memB : b ∈ node.children) :
    a = b ∨ a.span.stop ≤ b.span.start ∨ b.span.stop ≤ a.span.start :=
  eq_or_rel_of_pairwise (formed.ordered node outer) memA memB

/-- Two nodes lie side by side, or one is inside the other. -/
theorem side_by_side_or_inside {node a b : Node} (outer : node ∈ root.nodes)
    (memA : a ∈ node.nodes) (memB : b ∈ node.nodes) :
    a.span.stop ≤ b.span.start ∨ b.span.stop ≤ a.span.start ∨ b ∈ a.nodes ∨ a ∈ b.nodes := by
  induction node using induction_on with
  | step node ih =>
      rcases mem_nodes.1 memA with rfl | ⟨childA, memberA, innerA⟩
      · exact .inr (.inr (.inl memB))
      rcases mem_nodes.1 memB with rfl | ⟨childB, memberB, innerB⟩
      · exact .inr (.inr (.inr memA))
      have inner : ∀ child ∈ node.children, child ∈ root.nodes :=
        fun child member => mem_nodes_of_mem_children outer member
      have insideA := formed.inside (inner childA memberA) innerA
      have insideB := formed.inside (inner childB memberB) innerB
      rcases formed.children_cases outer memberA memberB with rfl | before | after
      · exact ih childA memberA (inner childA memberA) innerA innerB
      · exact .inl (by omega)
      · exact .inr (.inl (by omega))

/-- A comment lies beside every other node or inside it. -/
theorem comment_cases {comment node : Node} (member : comment ∈ root.nodes)
    (isComment : comment.kind = .comment) (member' : node ∈ root.nodes) :
    node.span.stop ≤ comment.span.start ∨ comment.span.stop ≤ node.span.start ∨
      node.span.start ≤ comment.span.start ∧ comment.span.stop ≤ node.span.stop := by
  rcases formed.side_by_side_or_inside root.self_mem_nodes member' member with
    before | after | inner | outer
  · exact .inl before
  · exact .inr (.inl after)
  · exact .inr (.inr (formed.inside member' inner))
  · have empty : comment.children = [] :=
      List.isEmpty_iff.1 (formed.leaf comment member isComment)
    rcases mem_nodes.1 outer with rfl | ⟨child, inner, -⟩
    · exact .inr (.inr ⟨Nat.le_refl _, Nat.le_refl _⟩)
    · rw [empty] at inner
      cases inner

/-- No node starts in the middle of a comment. -/
theorem start_comment_cases {comment node : Node} (member : comment ∈ root.nodes)
    (isComment : comment.kind = .comment) (member' : node ∈ root.nodes) :
    node.span.start ≤ comment.span.start ∨ comment.span.stop ≤ node.span.start := by
  have order := (formed.bounds node member').2.2
  rcases formed.comment_cases member isComment member' with before | after | inside
  · exact .inl (by omega)
  · exact .inr after
  · exact .inl inside.1

/-- No node stops in the middle of a comment. -/
theorem stop_comment_cases {comment node : Node} (member : comment ∈ root.nodes)
    (isComment : comment.kind = .comment) (member' : node ∈ root.nodes) :
    node.span.stop ≤ comment.span.start ∨ comment.span.stop ≤ node.span.stop := by
  have order := (formed.bounds node member').2.2
  rcases formed.comment_cases member isComment member' with before | after | inside
  · exact .inl before
  · exact .inr (by omega)
  · exact .inr inside.2

end WellFormed

end Node

end TagLift
