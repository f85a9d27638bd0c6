import TagLift.Proofs.Tree.Places

/-!
# Spans with doc comments

A doc comment extends the span of its declaration to the left. It stands behind the last sibling
that counts and is no comment, so full spans still follow each other where nodes do: the methods of
a class inside of the class, and the classes inside of a statement inside of the statement.
-/

namespace TagLift

namespace Span

/-- A span ends before another starts. -/
def Before (left right : Span) : Prop :=
  left.stop ≤ right.start

/-- A span lies inside another. -/
structure Within (inner outer : Span) : Prop where
  starts : outer.start ≤ inner.start
  stops : inner.stop ≤ outer.stop

theorem Within.trans {inner middle outer : Span} (first : inner.Within middle)
    (second : middle.Within outer) : inner.Within outer :=
  ⟨Nat.le_trans second.starts first.starts, Nat.le_trans first.stops second.stops⟩

end Span

/-! ## Nodes with their doc comments -/

theorem Declaration.fullSpan_stop (decl : Declaration) : decl.fullSpan.stop = decl.span.stop := by
  rw [fullSpan]
  split <;> rfl

theorem Declaration.fullSpan_start_le (decl : Declaration) :
    decl.fullSpan.start ≤ decl.span.start := by
  rw [fullSpan]
  split
  · exact Nat.min_le_right _ _
  · exact Nat.le_refl _

/-- The full span depends on the spans of the declaration and its doc comment only. -/
theorem Declaration.fullSpan_congr {old new : Declaration} (span : new.span = old.span)
    (doc : new.doc.map (·.span) = old.doc.map (·.span)) : new.fullSpan = old.fullSpan := by
  have same : new.doc.bind (·.span) = old.doc.bind (·.span) := by
    cases had : old.doc <;> cases has : new.doc <;> simp_all
  rw [Declaration.fullSpan, Declaration.fullSpan, same, span]

/-- A full span starts behind an offset if the declaration and its doc comment do. -/
theorem Declaration.le_fullSpan_start {decl : Declaration} {bound : Nat}
    (own : bound ≤ decl.span.start)
    (doc : ∀ doc ∈ decl.doc, ∀ span ∈ doc.span, bound ≤ span.start) :
    bound ≤ decl.fullSpan.start := by
  rw [fullSpan]
  split
  next span found =>
    obtain ⟨comment, isDoc, isSpan⟩ := Option.bind_eq_some_iff.1 found
    exact Nat.le_min.2 ⟨doc comment isDoc span isSpan, own⟩
  · exact own

namespace Node

namespace Place

/-- The span of the node at a place with its doc comment. -/
def fullSpan (source : Text) (counts : Node → Bool) (place : Place) : Span :=
  (place.node.toDeclaration source (place.doc source counts)).fullSpan

variable {source : Text} {counts : Node → Bool} {place : Place}

theorem fullSpan_stop : (place.fullSpan source counts).stop = place.node.span.stop :=
  Declaration.fullSpan_stop _

theorem fullSpan_start_le : (place.fullSpan source counts).start ≤ place.node.span.start :=
  Declaration.fullSpan_start_le _

/-- The doc comment at a place is that of a comment in front of it, behind which all that counts is
comments. -/
theorem exists_comment_of_doc {doc : DocComment} (found : place.doc source counts = some doc) :
    ∃ front comment middle, LastDoc source counts place.before front comment middle ∧
      doc.span = some comment.span := by
  have waits : docBefore source (place.before.filter counts) = some doc := by
    rw [← doc_trail]
    rw [Place.doc, PendingDoc.docFor] at found
    split at found
    · exact found
    · cases found
  obtain ⟨front, comment, middle, last, rfl⟩ := exists_lastDoc waits
  exact ⟨front, comment, middle, last, rfl⟩

/-- A node that counts and is no comment has all doc comments of later places behind it. -/
theorem mem_between {first : Place} {between front middle : List Node} {comment : Node}
    (behind : place.before = first.before ++ first.node :: between)
    (counted : counts first.node) (other : first.node.kind ≠ .comment)
    (last : LastDoc source counts place.before front comment middle) : comment ∈ between := by
  have split := behind.symm.trans last.split
  have notMiddle : first.node ∉ middle := fun inner =>
    other (last.plain first.node inner counted).1
  have notComment : first.node ≠ comment := fun same => other (same ▸ last.isComment)
  -- Of the two splits of the same siblings, the one at the node comes first.
  rcases List.append_eq_append_iff.1 split with ⟨gap, -, right⟩ | ⟨gap, -, right⟩
  · cases gap with
    | nil => exact absurd (List.cons.inj right).1 notComment
    | cons head gap =>
        rw [(List.cons.inj right).2]
        simp
  · cases gap with
    | nil => exact absurd (List.cons.inj right).1.symm notComment
    | cons head gap =>
        refine absurd ?_ notMiddle
        rw [(List.cons.inj right).2]
        simp

section Siblings

variable {siblings : List Node}

theorem node_before {first : Place} {between : List Node}
    (ordered : siblings.Pairwise fun a b => a.span.Before b.span)
    (member : place ∈ places siblings)
    (behind : place.before = first.before ++ first.node :: between) :
    first.node.span.Before place.node.span ∧
      ∀ comment ∈ between, first.node.span.Before comment.span := by
  obtain ⟨after, rfl⟩ := mem_places.1 member
  rw [behind, List.append_assoc, List.cons_append, List.pairwise_append,
    List.pairwise_cons] at ordered
  obtain ⟨-, ⟨later, -⟩, -⟩ := ordered
  exact ⟨later place.node (by simp), fun comment inner => later comment (by simp [inner])⟩

/-- A node that counts and is no comment lies before later nodes and their doc comments. -/
theorem before_fullSpan {first : Place} {between : List Node}
    (ordered : siblings.Pairwise fun a b => a.span.Before b.span)
    (member : place ∈ places siblings)
    (behind : place.before = first.before ++ first.node :: between)
    (counted : counts first.node) (other : first.node.kind ≠ .comment) :
    first.node.span.Before (place.fullSpan source counts) := by
  obtain ⟨node, comments⟩ := node_before ordered member behind
  refine Declaration.le_fullSpan_start node fun doc isDoc span isSpan => ?_
  obtain ⟨front, comment, middle, last, spanned⟩ := exists_comment_of_doc isDoc
  obtain rfl := Option.some.inj (spanned.symm.trans isSpan)
  exact comments comment (mem_between behind counted other last)

/-- A child with its doc comment lies inside the parent. -/
theorem fullSpan_within {outer : Span} (inside : ∀ node ∈ siblings, node.span.Within outer)
    (member : place ∈ places siblings) : (place.fullSpan source counts).Within outer := by
  have own := inside place.node (node_mem_of_mem_places member)
  constructor
  · refine Declaration.le_fullSpan_start own.starts fun doc isDoc span isSpan => ?_
    obtain ⟨front, comment, middle, last, spanned⟩ := exists_comment_of_doc isDoc
    obtain rfl := Option.some.inj (spanned.symm.trans isSpan)
    obtain ⟨after, rfl⟩ := mem_places.1 member
    exact (inside comment (by simp [last.split])).starts
  · rw [fullSpan_stop]
    exact own.stops

end Siblings

end Place

end Node

/-! ## Classes and their methods -/

/-- With their doc comments, methods lie inside their class and follow each other. -/
structure ClassDecl.MethodsInOrder (decl : ClassDecl) : Prop where
  inside : ∀ method ∈ decl.methods, method.fullSpan.Within decl.decl.span
  inOrder : decl.methods.Pairwise fun a b => a.fullSpan.Before b.fullSpan

namespace Node

namespace Place

variable {source : Text} {place : Place}

theorem fullSpan_of_mem_methods {method : Declaration} (member : method ∈ place.methods source) :
    method.fullSpan = place.fullSpan source countsInside ∧ place.node.kind = .method := by
  rw [methods] at member
  split at member
  next isMethod =>
    obtain rfl := List.mem_singleton.1 member
    exact ⟨rfl, isMethod⟩
  · cases member

theorem pairwise_methods {rel : Declaration → Declaration → Prop} :
    (place.methods source).Pairwise rel := by
  rw [methods]
  split
  · exact List.pairwise_singleton _ _
  · exact .nil

/-- A class at a place or inside its node, if those inside lie inside. -/
theorem within_of_mem_classes {decl : ClassDecl}
    (inner : ∀ decl ∈ place.node.nestedClasses source, decl.decl.fullSpan.Within place.node.span)
    (member : decl ∈ place.classes source) :
    decl.decl.span.Within place.node.span ∧
      (place.fullSpan source countsInside).start ≤ decl.decl.fullSpan.start := by
  rw [classes] at member
  split at member
  next kind isClass =>
    obtain rfl := List.mem_singleton.1 member
    exact ⟨⟨Nat.le_refl _, Nat.le_refl _⟩, Nat.le_refl _⟩
  next =>
    split at member
    · cases member
    · have within := inner decl member
      refine ⟨⟨?_, ?_⟩, Nat.le_trans fullSpan_start_le within.starts⟩
      · exact Nat.le_trans within.starts decl.decl.fullSpan_start_le
      · rw [← decl.decl.fullSpan_stop]
        exact within.stops

end Place

/-- Classes inside a node are related if those of each child are and those of two children are. -/
theorem pairwise_nestedClasses {source : Text} {root : Node}
    {rel : ClassDecl → ClassDecl → Prop}
    (apart : ∀ node ∈ root.nodes, ∀ first ∈ places node.children,
      ∀ second ∈ places node.children, ∀ between,
      second.before = first.before ++ first.node :: between →
      ∀ a ∈ first.classes source, ∀ b ∈ second.classes source, rel a b)
    {node : Node} (inTree : node ∈ root.nodes) : (node.nestedClasses source).Pairwise rel := by
  induction node using induction_on with
  | step node ih =>
      rw [nestedClasses_eq_flatMap_places]
      refine pairwise_flatMap_places (fun place isPlace => ?_) (apart node inTree)
      rw [Place.classes]
      split
      · exact List.pairwise_singleton _ _
      next =>
        split
        · exact .nil
        · have isChild := node_mem_of_mem_places isPlace
          exact ih place.node isChild (mem_nodes_of_mem_children inTree isChild)

section Tree

variable {source : Text} {root : Node} (tree : Nested root)

include tree

theorem Nested.children_within {node : Node} (inTree : node ∈ root.nodes) :
    ∀ child ∈ node.children, child.span.Within node.span :=
  fun child member => ⟨(tree.nested node inTree child member).1,
    (tree.nested node inTree child member).2⟩

theorem methodsInOrder_toClass {node : Node} (inTree : node ∈ root.nodes) (kind : ClassKind)
    (doc : Option DocComment) : (node.toClass source kind doc).MethodsInOrder := by
  rcases methods_toClass_cases source kind doc node with none | ⟨body, isChild, methods⟩
  · exact ⟨by simp [none], by simp [none]⟩
  have inTree' := mem_nodes_of_mem_children inTree isChild
  constructor
  · rw [methods]
    intro method member
    obtain ⟨place, isPlace, inPlace⟩ := List.mem_flatMap.1 member
    rw [(Place.fullSpan_of_mem_methods inPlace).1]
    exact (Place.fullSpan_within (tree.children_within inTree') isPlace).trans
      (tree.children_within inTree body isChild)
  · rw [methods]
    refine pairwise_flatMap_places (fun _ _ => Place.pairwise_methods) ?_
    intro first _ second isPlace between behind a inFirst b inSecond
    obtain ⟨firstSpan, isMethod⟩ := Place.fullSpan_of_mem_methods inFirst
    have before : first.node.span.Before (second.fullSpan source countsInside) :=
      Place.before_fullSpan (tree.ordered body inTree') isPlace behind rfl (by simp [isMethod])
    rw [(Place.fullSpan_of_mem_methods inSecond).1, firstSpan, Span.Before, Place.fullSpan_stop]
    exact before

/-- With their doc comments, the classes inside a node lie inside it. -/
theorem within_of_mem_nestedClasses {node : Node} (inTree : node ∈ root.nodes) :
    ∀ decl ∈ node.nestedClasses source, decl.decl.fullSpan.Within node.span := by
  induction node using induction_on with
  | step node ih =>
      intro decl member
      rw [nestedClasses_eq_flatMap_places] at member
      obtain ⟨place, isPlace, inPlace⟩ := List.mem_flatMap.1 member
      have isChild := node_mem_of_mem_places isPlace
      have inner := ih place.node isChild (mem_nodes_of_mem_children inTree isChild)
      obtain ⟨own, starts⟩ := Place.within_of_mem_classes inner inPlace
      have full : (place.fullSpan source countsInside).Within node.span :=
        Place.fullSpan_within (tree.children_within inTree) isPlace
      refine ⟨Nat.le_trans full.starts starts, ?_⟩
      rw [Declaration.fullSpan_stop]
      exact Nat.le_trans own.stops (tree.children_within inTree place.node isChild).stops

theorem Place.within_of_mem_classes_of_mem {node : Node} (inTree : node ∈ root.nodes)
    {place : Place} (isPlace : place ∈ places node.children) {decl : ClassDecl}
    (member : decl ∈ place.classes source) :
    decl.decl.span.Within place.node.span ∧
      (place.fullSpan source countsInside).start ≤ decl.decl.fullSpan.start :=
  within_of_mem_classes (within_of_mem_nestedClasses tree
    (mem_nodes_of_mem_children inTree (node_mem_of_mem_places isPlace))) member

/-- The classes inside a node follow each other. -/
theorem pairwise_span_nestedClasses {node : Node} (inTree : node ∈ root.nodes) :
    (node.nestedClasses source).Pairwise fun a b => a.decl.span.Before b.decl.span := by
  refine pairwise_nestedClasses ?_ inTree
  intro parent inTree first isFirst second isSecond between behind a inFirst b inSecond
  have left := (Place.within_of_mem_classes_of_mem tree inTree isFirst inFirst).1
  have right := (Place.within_of_mem_classes_of_mem tree inTree isSecond inSecond).1
  calc a.decl.span.stop
    _ ≤ first.node.span.stop := left.stops
    _ ≤ second.node.span.start := (Place.node_before (tree.ordered parent inTree) isSecond behind).1
    _ ≤ b.decl.span.start := right.starts

/-- They do so with their doc comments if no class is inside of a comment. -/
theorem pairwise_fullSpan_nestedClasses
    (leaves : ∀ node ∈ root.nodes, node.kind = .comment → node.children = [])
    {node : Node} (inTree : node ∈ root.nodes) :
    (node.nestedClasses source).Pairwise fun a b => a.decl.fullSpan.Before b.decl.fullSpan := by
  refine pairwise_nestedClasses ?_ inTree
  intro parent inTree first isFirst second isSecond between behind a inFirst b inSecond
  have left := (Place.within_of_mem_classes_of_mem tree inTree isFirst inFirst).1
  have right := (Place.within_of_mem_classes_of_mem tree inTree isSecond inSecond).2
  have other : first.node.kind ≠ .comment := by
    intro comment
    have leaf := leaves first.node
      (mem_nodes_of_mem_children inTree (node_mem_of_mem_places isFirst)) comment
    rw [Place.classes, classKind?, comment] at inFirst
    simp [nestedClasses_eq, leaf, nestedClassesOf] at inFirst
  calc a.decl.fullSpan.stop
    _ = a.decl.span.stop := a.decl.fullSpan_stop
    _ ≤ first.node.span.stop := left.stops
    _ ≤ (second.fullSpan source countsInside).start :=
      Place.before_fullSpan (tree.ordered parent inTree) isSecond behind rfl other
    _ ≤ b.decl.fullSpan.start := right

end Tree

end Node

end TagLift
