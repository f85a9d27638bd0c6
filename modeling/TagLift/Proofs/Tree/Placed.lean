import TagLift.Proofs.Migration.PerClass
import TagLift.Proofs.Tree.WellFormed

/-!
# Where declarations lie

The declarations that are read off a well-formed tree have the spans of nodes: their own, those of
their attribute groups, and those of the comments that document them. The comments follow each
other in the order of the declarations, so no comment documents two of them.
-/

namespace TagLift

namespace Span

/-- Spans that follow each other between two offsets. -/
def Ascending : Nat → Nat → List Span → Prop
  | lo, hi, [] => lo ≤ hi
  | lo, hi, span :: rest => lo ≤ span.start ∧ span.start ≤ span.stop ∧ Ascending span.stop hi rest

namespace Ascending

variable {lo mid hi : Nat} {spans others : List Span}

theorem mono {lo' hi' : Nat} (lower : lo' ≤ lo) (upper : hi ≤ hi')
    (ascending : Ascending lo hi spans) : Ascending lo' hi' spans := by
  induction spans generalizing lo lo' with
  | nil => exact Nat.le_trans lower (Nat.le_trans ascending upper)
  | cons span spans ih =>
      obtain ⟨starts, order, rest⟩ := ascending
      exact ⟨Nat.le_trans lower starts, order, ih (Nat.le_refl _) rest⟩

theorem le (ascending : Ascending lo hi spans) : lo ≤ hi := by
  induction spans generalizing lo with
  | nil => exact ascending
  | cons span spans ih =>
      obtain ⟨starts, order, rest⟩ := ascending
      exact Nat.le_trans starts (Nat.le_trans order (ih rest))

theorem append (first : Ascending lo mid spans) (second : Ascending mid hi others) :
    Ascending lo hi (spans ++ others) := by
  induction spans generalizing lo with
  | nil => exact second.mono first (Nat.le_refl _)
  | cons span spans ih => exact ⟨first.1, first.2.1, ih first.2.2⟩

theorem bounds (ascending : Ascending lo hi spans) {span : Span} (member : span ∈ spans) :
    lo ≤ span.start ∧ span.start ≤ span.stop ∧ span.stop ≤ hi := by
  induction spans generalizing lo with
  | nil => cases member
  | cons first spans ih =>
      obtain ⟨starts, order, rest⟩ := ascending
      rcases List.mem_cons.1 member with rfl | later
      · exact ⟨starts, order, rest.le⟩
      · have := ih rest later
        omega

theorem pairwise (ascending : Ascending lo hi spans) :
    spans.Pairwise fun a b => a.stop ≤ b.start := by
  induction spans generalizing lo with
  | nil => exact .nil
  | cons span spans ih =>
      exact List.pairwise_cons.2 ⟨fun later member => (ascending.2.2.bounds member).1,
        ih ascending.2.2⟩

end Ascending

end Span

/-- The spans of the doc comments of declarations. -/
def docSpans (decls : List Declaration) : List Span :=
  decls.filterMap fun decl => decl.doc.bind (·.span)

theorem docSpans_append (decls others : List Declaration) :
    docSpans (decls ++ others) = docSpans decls ++ docSpans others :=
  List.filterMap_append

/-- A doc comment has the span of a comment of the tree that lies between two offsets. -/
def DocBetween (root : Node) (lo hi : Nat) (doc : Option DocComment) : Prop :=
  ∀ found ∈ doc, ∃ comment ∈ root.nodes, comment.kind = .comment ∧
    found.span = some comment.span ∧ lo ≤ comment.span.start ∧ comment.span.stop ≤ hi

theorem DocBetween.mono {root : Node} {lo hi lo' hi' : Nat} {doc : Option DocComment}
    (lower : lo' ≤ lo) (upper : hi ≤ hi') (between : DocBetween root lo hi doc) :
    DocBetween root lo' hi' doc := by
  intro found member
  obtain ⟨comment, inTree, kind, span, starts, stops⟩ := between found member
  exact ⟨comment, inTree, kind, span, Nat.le_trans lower starts, Nat.le_trans stops upper⟩

theorem docBetween_none (root : Node) (lo hi : Nat) : DocBetween root lo hi none := by
  simp [DocBetween]

/-- A declaration has the span of a node that lies between two offsets, its attribute groups have
spans of nodes inside, and a first group would go in front of such a node. -/
structure Declaration.Stands (source : Text) (root : Node) (lo hi : Nat) (decl : Declaration) :
    Prop where
  node : ∃ node ∈ root.nodes, decl.span = node.span
  solid : Node.Solid source decl.span
  starts : lo ≤ decl.span.start
  stops : decl.span.stop ≤ hi
  anchor : ∃ node ∈ root.nodes, decl.attributeAnchor = node.span.start ∧
    decl.span.start ≤ node.span.start ∧ node.span.start ≤ decl.span.stop
  groups : ∀ group ∈ decl.groups, ∃ node ∈ root.nodes, group.span = some node.span ∧
    decl.span.start ≤ node.span.stop ∧ node.span.stop ≤ decl.span.stop
  doc : DocBetween root lo decl.span.start decl.doc

/-- Declarations stand between two offsets, and their doc comments follow each other. -/
structure Placed (source : Text) (root : Node) (lo hi : Nat) (decls : List Declaration) : Prop where
  docs : Span.Ascending lo hi (docSpans decls)
  each : ∀ decl ∈ decls, decl.Stands source root lo hi

section Order

variable {source : Text} {root : Node} {lo mid hi : Nat} {decls others : List Declaration}

theorem Declaration.Stands.mono {lo' hi' : Nat} {decl : Declaration} (lower : lo' ≤ lo)
    (upper : hi ≤ hi') (stands : decl.Stands source root lo hi) :
    decl.Stands source root lo' hi' :=
  { stands with
    starts := Nat.le_trans lower stands.starts
    stops := Nat.le_trans stands.stops upper
    doc := stands.doc.mono lower (Nat.le_refl _) }

theorem placed_nil (order : lo ≤ hi) : Placed source root lo hi [] :=
  ⟨order, by simp⟩

theorem Placed.mono {lo' hi' : Nat} (lower : lo' ≤ lo) (upper : hi ≤ hi')
    (placed : Placed source root lo hi decls) : Placed source root lo' hi' decls :=
  ⟨placed.docs.mono lower upper, fun decl member => (placed.each decl member).mono lower upper⟩

theorem Placed.append (first : Placed source root lo mid decls)
    (second : Placed source root mid hi others) : Placed source root lo hi (decls ++ others) := by
  constructor
  · rw [docSpans_append]
    exact first.docs.append second.docs
  · intro decl member
    rcases List.mem_append.1 member with before | after
    · exact (first.each decl before).mono (Nat.le_refl _) second.docs.le
    · exact (second.each decl after).mono first.docs.le (Nat.le_refl _)

/-- A declaration goes in front of others that stand behind its doc comment. -/
theorem Placed.cons {decl : Declaration} (stands : decl.Stands source root lo hi)
    (doc : Span.Ascending lo mid (docSpans [decl])) (rest : Placed source root mid hi others) :
    Placed source root lo hi (decl :: others) := by
  constructor
  · rw [← List.singleton_append, docSpans_append]
    exact doc.append rest.docs
  · intro other member
    rcases List.mem_cons.1 member with rfl | later
    · exact stands
    · exact (rest.each other later).mono doc.le (Nat.le_refl _)

end Order

namespace PendingDoc

variable (source : Text) {root : Node} {lo pos : Nat} {pending : PendingDoc}

theorem docBetween_docFor {start : Nat} (waits : DocBetween root lo pos pending.doc)
    (order : pos ≤ start) : DocBetween root lo start (pending.docFor source start) := by
  rw [docFor]
  split
  · exact waits.mono (Nat.le_refl _) order
  · exact docBetween_none root lo start

theorem docBetween_observe {node : Node} (inTree : node ∈ root.nodes)
    (waits : DocBetween root lo pos pending.doc) (order : lo ≤ pos) (starts : pos ≤ node.span.start)
    (stops : node.span.start ≤ node.span.stop) :
    DocBetween root lo node.span.stop (pending.observe source node).doc := by
  rw [observe]
  split
  next comment =>
    dsimp only
    split
    · intro found member
      obtain rfl : ⟨some node.span, node.text source⟩ = found := by simpa using member
      exact ⟨node, inTree, comment, rfl, Nat.le_trans order starts, Nat.le_refl _⟩
    · exact waits.mono (Nat.le_refl _) (Nat.le_trans starts stops)
  · exact docBetween_none root lo _

theorem observe_doc_of_not_comment {node : Node} (kind : node.kind ≠ .comment) :
    (pending.observe source node).doc = none := by
  simp [observe, kind]

end PendingDoc

namespace Node

/-- The children of a node follow each other inside it. -/
theorem WellFormed.ascending_children {source : Text} {root node : Node}
    (formed : WellFormed source root) (inTree : node ∈ root.nodes) :
    Span.Ascending node.span.start node.span.stop (node.children.map (·.span)) := by
  have order := formed.ordered node inTree
  have bounds : ∀ child ∈ node.children, node.span.start ≤ child.span.start ∧
      child.span.start ≤ child.span.stop ∧ child.span.stop ≤ node.span.stop := by
    intro child member
    have inside := formed.nested node inTree child member
    exact ⟨inside.1, (formed.bounds child (mem_nodes_of_mem_children inTree member)).2.2, inside.2⟩
  have whole := (formed.bounds node inTree).2.2
  generalize node.children = children at order bounds
  generalize node.span.start = lo at bounds whole
  induction children generalizing lo with
  | nil => exact whole
  | cons child children ih =>
      obtain ⟨before, order⟩ := List.pairwise_cons.1 order
      obtain ⟨starts, here, stops⟩ := bounds child (by simp)
      refine ⟨starts, here, ih order child.span.stop (fun later member => ?_) stops⟩
      exact ⟨before later member, (bounds later (by simp [member])).2⟩

theorem nestedClasses_eq (source : Text) (node : Node) :
    node.nestedClasses source = nestedClassesOf source .empty node.children := by
  obtain ⟨kind, span, named, children⟩ := node
  rfl

section Lowered

variable {source : Text} {root : Node} (formed : WellFormed source root)

include formed

/-- A declaration stands where its node does. -/
theorem stands_toDeclaration {node : Node} {doc : Option DocComment} {lo : Nat}
    (inTree : node ∈ root.nodes) (solid : Solid source node.span) (starts : lo ≤ node.span.start)
    (waits : DocBetween root lo node.span.start doc) :
    (node.toDeclaration source doc).Stands source root lo node.span.stop where
  node := ⟨node, inTree, rfl⟩
  solid := solid
  starts := starts
  stops := Nat.le_refl _
  anchor := by
    simp only [toDeclaration]
    cases found : node.children.find? fun child =>
        child.kind != .attributeList && child.kind != .comment with
    | none => exact ⟨node, inTree, rfl, Nat.le_refl _, Nat.le_of_lt solid.filled⟩
    | some child =>
        have member := List.mem_of_find?_eq_some found
        have inTree' := mem_nodes_of_mem_children inTree member
        have inside := formed.nested node inTree child member
        have order := (formed.bounds child inTree').2.2
        exact ⟨child, inTree', rfl, inside.1, Nat.le_trans order inside.2⟩
  groups := by
    intro group member
    simp only [toDeclaration, List.mem_map, List.mem_filter] at member
    obtain ⟨inner, ⟨member, -⟩, rfl⟩ := member
    cases found : node.child? .attributeList with
    | none => simp [found] at member
    | some list =>
        have member' : inner ∈ list.children := by simpa [found] using member
        have inTree' := mem_nodes_of_mem_children inTree (List.mem_of_find?_eq_some found)
        have inTree'' := mem_nodes_of_mem_children inTree' member'
        have inside := formed.nested node inTree list (List.mem_of_find?_eq_some found)
        have inside' := formed.nested list inTree' inner member'
        have order := (formed.bounds inner inTree'').2.2
        refine ⟨inner, inTree'', rfl, ?_, ?_⟩
        · exact Nat.le_trans inside.1 (Nat.le_trans inside'.1 order)
        · exact Nat.le_trans inside'.2 inside.2
  doc := waits

theorem docSpans_toDeclaration {node : Node} {doc : Option DocComment} {lo : Nat}
    (starts : lo ≤ node.span.start) (waits : DocBetween root lo node.span.start doc) :
    Span.Ascending lo node.span.start (docSpans [node.toDeclaration source doc]) := by
  cases doc with
  | none => exact starts
  | some found =>
      obtain ⟨comment, inTree, -, span, lower, upper⟩ := waits found rfl
      simp only [docSpans, toDeclaration, List.filterMap_cons, Option.bind_some, span]
      exact ⟨lower, (formed.bounds comment inTree).2.2, upper⟩

/-- Methods are placed one after the other. -/
theorem placed_methodsOf {siblings : List Node} {pending : PendingDoc} {lo pos hi : Nat}
    (inTree : ∀ node ∈ siblings, node ∈ root.nodes)
    (ascending : Span.Ascending pos hi (siblings.map (·.span)))
    (waits : DocBetween root lo pos pending.doc) (order : lo ≤ pos) :
    Placed source root lo hi (methodsOf source pending siblings) := by
  induction siblings generalizing pending lo pos with
  | nil => exact placed_nil (Nat.le_trans order ascending)
  | cons member rest ih =>
      obtain ⟨starts, stops, ascending⟩ := ascending
      have here := inTree member (by simp)
      have inTree' : ∀ node ∈ rest, node ∈ root.nodes :=
        fun node later => inTree node (by simp [later])
      simp only [methodsOf]
      split
      next method =>
        -- Behind a method nothing waits, so what follows is placed behind it.
        have later : Placed source root member.span.stop hi
            (methodsOf source (pending.observe source member) rest) := by
          refine ih inTree' ascending ?_ (Nat.le_refl _)
          rw [PendingDoc.observe_doc_of_not_comment source (by simp [method])]
          exact docBetween_none root _ _
        have doc := PendingDoc.docBetween_docFor source waits starts
        have starts' := Nat.le_trans order starts
        have solid := formed.solid member here (.inr (.inl method))
        exact .cons ((stands_toDeclaration formed here solid starts' doc).mono (Nat.le_refl _)
          ascending.le) (docSpans_toDeclaration formed starts' doc)
          (later.mono stops (Nat.le_refl _))
      next =>
        exact ih inTree' ascending
          (PendingDoc.docBetween_observe source here waits order starts stops)
          (Nat.le_trans order (Nat.le_trans starts stops))

/-- A class is placed with its methods inside. -/
theorem placed_toClass {node : Node} {kind : ClassKind} {doc : Option DocComment} {lo : Nat}
    (inTree : node ∈ root.nodes) (isClass : node.classKind?.isSome)
    (starts : lo ≤ node.span.start) (waits : DocBetween root lo node.span.start doc) :
    Placed source root lo node.span.stop (node.toClass source kind doc).declarations := by
  have solid := formed.solid node inTree (.inr (.inr isClass))
  have methods : Placed source root node.span.start node.span.stop
      (node.toClass source kind doc).methods := by
    simp only [toClass]
    cases found : (node.child? .members).or (node.child? .enumMembers) with
    | none => exact placed_nil (Nat.le_of_lt solid.filled)
    | some body =>
        have member : body ∈ node.children := by
          rcases Option.or_eq_some_iff.1 found with first | ⟨-, second⟩
          · exact List.mem_of_find?_eq_some first
          · exact List.mem_of_find?_eq_some second
        have inTree' := mem_nodes_of_mem_children inTree member
        have inside := formed.nested node inTree body member
        refine (placed_methodsOf formed ?_ (formed.ascending_children inTree')
          (docBetween_none root body.span.start _) (Nat.le_refl _)).mono inside.1 inside.2
        exact fun child inner => mem_nodes_of_mem_children inTree' inner
  exact .cons (stands_toDeclaration formed inTree solid starts waits)
    (docSpans_toDeclaration formed starts waits) methods

/-- The classes at and inside siblings are placed one after the other, if those inside each of
them are. -/
theorem placed_nestedClassesOf {siblings : List Node} {pending : PendingDoc} {lo pos hi : Nat}
    (inTree : ∀ node ∈ siblings, node ∈ root.nodes)
    (each : ∀ node ∈ siblings, Placed source root node.span.start node.span.stop
      ((node.nestedClasses source).flatMap ClassDecl.declarations))
    (ascending : Span.Ascending pos hi (siblings.map (·.span)))
    (waits : DocBetween root lo pos pending.doc) (order : lo ≤ pos) :
    Placed source root lo hi
      ((nestedClassesOf source pending siblings).flatMap ClassDecl.declarations) := by
  induction siblings generalizing pending lo pos with
  | nil => exact placed_nil (Nat.le_trans order ascending)
  | cons node rest ih =>
      obtain ⟨starts, stops, ascending⟩ := ascending
      have here := inTree node (by simp)
      have starts' := Nat.le_trans order starts
      have keep : Placed source root lo hi ((nestedClassesOf source
          (pending.observe source node) rest).flatMap ClassDecl.declarations) :=
        ih (fun other later => inTree other (by simp [later]))
          (fun other later => each other (by simp [later])) ascending
          (PendingDoc.docBetween_observe source here waits order starts stops)
          (Nat.le_trans starts' stops)
      have pass (kind : node.kind ≠ .comment) : Placed source root node.span.stop hi
          ((nestedClassesOf source (pending.observe source node) rest).flatMap
            ClassDecl.declarations) := by
        refine ih (fun other later => inTree other (by simp [later]))
          (fun other later => each other (by simp [later])) ascending ?_ (Nat.le_refl _)
        rw [PendingDoc.observe_doc_of_not_comment source kind]
        exact docBetween_none root _ _
      simp only [nestedClassesOf]
      split
      next kind isClass =>
        rw [List.flatMap_cons]
        refine Placed.append (placed_toClass formed here (by simp [isClass]) starts'
          (PendingDoc.docBetween_docFor source waits starts)) (pass ?_)
        intro comment
        simp [classKind?, comment] at isClass
      next =>
        split
        · exact keep
        next =>
          rw [List.flatMap_append]
          by_cases comment : node.kind = .comment
          · have empty : node.nestedClasses source = [] := by
              rw [nestedClasses_eq, List.isEmpty_iff.1 (formed.leaf node here comment)]
              rfl
            rw [empty]
            exact keep
          · exact ((each node (by simp)).mono starts' (Nat.le_refl _)).append (pass comment)

/-- The classes inside a node are placed inside it. -/
theorem placed_nestedClasses {node : Node} (inTree : node ∈ root.nodes) :
    Placed source root node.span.start node.span.stop
      ((node.nestedClasses source).flatMap ClassDecl.declarations) := by
  induction node using induction_on with
  | step node ih =>
      have inTree' : ∀ child ∈ node.children, child ∈ root.nodes :=
        fun child member => mem_nodes_of_mem_children inTree member
      rw [nestedClasses_eq]
      exact placed_nestedClassesOf formed inTree'
        (fun child member => ih child member (inTree' child member))
        (formed.ascending_children inTree) (docBetween_none root _ _) (Nat.le_refl _)

end Lowered

end Node

end TagLift
