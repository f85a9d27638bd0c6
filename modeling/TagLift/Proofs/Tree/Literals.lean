import TagLift.Proofs.Layout.Protected
import TagLift.Proofs.Tree.Spans

/-!
# The literals of a tree

Of a literal inside of another one only the outer one is recorded. So the recorded spans follow each
other where siblings do, and every literal of the tree lies in one of them. They are what normal
layout takes as protected: none is cut short by the one in front of it.
-/

namespace TagLift

namespace Node

/-- The outermost literals of a node are the node itself, or those of its children. -/
theorem literals_eq (node : Node) :
    node.literals =
      if node.kind = .literal then [node.span] else node.children.flatMap literals := by
  have literalsOf_eq (siblings : List Node) : literalsOf siblings = siblings.flatMap literals := by
    induction siblings with
    | nil => rfl
    | cons node rest ih => rw [literalsOf, ih, List.flatMap_cons]
  obtain ⟨kind, span, named, children⟩ := node
  rw [literals, literalsOf_eq]

/-- What is recorded is the span of a literal. -/
theorem exists_literal_of_mem_literals {node : Node} {span : Span} (member : span ∈ node.literals) :
    ∃ inner ∈ node.nodes, inner.kind = .literal ∧ inner.span = span := by
  induction node using induction_on with
  | step node ih =>
      rw [literals_eq] at member
      split at member
      next isLiteral =>
        exact ⟨node, node.self_mem_nodes, isLiteral, (List.mem_singleton.1 member).symm⟩
      next =>
        obtain ⟨child, isChild, member⟩ := List.mem_flatMap.1 member
        obtain ⟨inner, inside, isLiteral, same⟩ := ih child isChild member
        exact ⟨inner, mem_nodes.2 (.inr ⟨child, isChild, inside⟩), isLiteral, same⟩

section Tree

variable {root : Node} (tree : Nested root) {node : Node} (inTree : node ∈ root.nodes)

include tree inTree

theorem within_of_mem_literals {span : Span} (member : span ∈ node.literals) :
    span.Within node.span := by
  obtain ⟨inner, inside, -, rfl⟩ := exists_literal_of_mem_literals member
  obtain ⟨starts, stops⟩ := tree.inside inTree inside
  exact ⟨starts, stops⟩

/-- The outermost literals of a node follow each other. -/
theorem pairwise_literals : node.literals.Pairwise Span.Before := by
  induction node using induction_on with
  | step node ih =>
      rw [literals_eq]
      split
      next => exact List.pairwise_singleton _ _
      next =>
        have inner : ∀ child ∈ node.children, child ∈ root.nodes :=
          fun child isChild => mem_nodes_of_mem_children inTree isChild
        rw [List.pairwise_flatMap]
        refine ⟨fun child isChild => ih child isChild (inner child isChild), ?_⟩
        refine (tree.ordered node inTree).imp_of_mem ?_
        intro first second isFirst isSecond before left inFirst right inSecond
        calc left.stop
          _ ≤ first.span.stop := (within_of_mem_literals tree (inner first isFirst) inFirst).stops
          _ ≤ second.span.start := before
          _ ≤ right.start := (within_of_mem_literals tree (inner second isSecond) inSecond).starts

/-- Every literal inside a node lies in an outermost one. -/
theorem exists_mem_literals_of_literal {inner : Node} (inside : inner ∈ node.nodes)
    (isLiteral : inner.kind = .literal) : ∃ span ∈ node.literals, inner.span.Within span := by
  induction node using induction_on with
  | step node ih =>
      rw [literals_eq]
      split
      next =>
        obtain ⟨starts, stops⟩ := tree.inside inTree inside
        exact ⟨node.span, List.mem_singleton_self _, starts, stops⟩
      next other =>
        rcases mem_nodes.1 inside with rfl | ⟨child, isChild, inside⟩
        · exact absurd isLiteral other
        · obtain ⟨span, member, within⟩ :=
            ih child isChild (mem_nodes_of_mem_children inTree isChild) inside
          exact ⟨span, List.mem_flatMap.2 ⟨child, isChild, member⟩, within⟩

end Tree

end Node

namespace SourceUnit

/-- The literals of a unit are spans of literals of a tree, in order, and cover all of these. -/
structure CoversLiterals (root : Node) (unit : SourceUnit) : Prop where
  inOrder : unit.literals.Pairwise Span.Before
  inside : ∀ span ∈ unit.literals, span.Within root.span
  literal : ∀ span ∈ unit.literals, ∃ node ∈ root.nodes, node.kind = .literal ∧ node.span = span
  covered : ∀ node ∈ root.nodes, node.kind = .literal →
    ∃ span ∈ unit.literals, node.span.Within span
  /-- As protected spans they are cut off at the end of the text only, if no node stops before it
  starts. -/
  kept : (∀ node ∈ root.nodes, node.span.start ≤ node.span.stop) →
    ∀ size, Layout.clipAll size 0 unit.literals = unit.literals.map (Layout.clip 0 size)

/-- In a tree whose nodes lie inside their parents and follow their siblings, the recorded literals
follow each other inside the root, and every literal lies in one of them. -/
theorem coversLiterals_ofTree (source : Text) (root : Node) (tree : root.Nested) :
    (ofTree source root).CoversLiterals root where
  inOrder := Node.pairwise_literals tree root.self_mem_nodes
  inside _ member := Node.within_of_mem_literals tree root.self_mem_nodes member
  literal _ member := Node.exists_literal_of_mem_literals member
  covered _ inTree isLiteral :=
    Node.exists_mem_literals_of_literal tree root.self_mem_nodes inTree isLiteral
  kept bounds size := by
    refine Layout.clipAll_eq_map (Node.pairwise_literals tree root.self_mem_nodes) ?_ ?_
    · intro span member
      obtain ⟨node, inTree, -, rfl⟩ := Node.exists_literal_of_mem_literals member
      exact bounds node inTree
    · exact fun span _ => Nat.zero_le span.start

/-- A string inside of an interpolated one is not recorded, and the inline text behind it is. -/
theorem coversLiterals_ofTree_interpolated : ∃ (source : Text) (root : Node), root.Nested ∧
    (root.nodes.filter (·.kind == .literal)).map (·.text source) =
      ["\"\x7b$f('a')\x7d\"".toList, "'a'".toList, "<p>\n".toList] ∧
    (ofTree source root).literals.map (·.slice source) =
      ["\"\x7b$f('a')\x7d\"".toList, "<p>\n".toList] ∧
    (ofTree source root).CoversLiterals root := by
  let source := "<?php $s = \"\x7b$f('a')\x7d\"; ?><p>\n".toList
  let node (kind : NodeKind) (start stop : Nat) (children : List Node) : Node :=
    ⟨kind, ⟨start, stop⟩, true, children⟩
  let call := node .other 13 20 [node .arguments 15 20 [node .literal 16 19 []]]
  let root := node .other 0 30 [node .openTag 0 5 [],
    node .exprStmt 6 23 [node .name 6 8 [], node .literal 11 22 [call]],
    node .other 24 30 [node .literal 26 30 []]]
  have tree : root.Nested := by decide +kernel
  refine ⟨source, root, tree, ?_, ?_, coversLiterals_ofTree source root tree⟩
  all_goals decide +kernel

end SourceUnit

end TagLift
