import TagLift.Proofs.Tree.Lined

/-!
# What is read off a tree

Every part of a unit that is read off a tree comes from a node, whatever spans the nodes have: a
statement has a span, the imports of a `use` declaration are those in the text of its node, an
attribute group has a span, and a doc comment has the text of a comment. Nothing is asked of the
tree here, so spans may be empty, cross each other or occur twice.
-/

namespace TagLift

/-- A doc comment that is a comment of the tree. -/
structure DocComment.ReadFrom (source : Text) (root : Node) (doc : DocComment) : Prop where
  isDoc : isDocComment doc.text
  node : ∃ comment ∈ root.nodes, comment.kind = .comment ∧
    doc = ⟨some comment.span, comment.text source⟩

/-- A declaration with attribute groups and a doc comment of the tree. -/
structure Declaration.ReadFrom (source : Text) (root : Node) (decl : Declaration) : Prop where
  groups : ∀ group ∈ decl.groups, group.span.isSome
  doc : ∀ doc ∈ decl.doc, doc.ReadFrom source root

/-- A class with declarations of the tree. -/
def ClassDecl.ReadFrom (source : Text) (root : Node) (decl : ClassDecl) : Prop :=
  ∀ inner ∈ decl.declarations, inner.ReadFrom source root

/-- A statement of the tree. -/
inductive Stmt.ReadFrom (source : Text) (root : Node) : Stmt → Prop
  | nspace (head : NamespaceHead) {body : List Stmt}
      (each : ∀ stmt ∈ body, stmt.ReadFrom source root) : ReadFrom source root (.nspace head body)
  | uses {node : Node} (inTree : node ∈ root.nodes) :
      ReadFrom source root (.uses (some node.span) (Import.ofDeclaration (node.text source)))
  | classLike {decl : ClassDecl} (read : decl.ReadFrom source root) :
      ReadFrom source root (.classLike decl)
  | enclosing (span : Span) {classes : List ClassDecl}
      (each : ∀ decl ∈ classes, decl.ReadFrom source root) :
      ReadFrom source root (.enclosing span classes)
  | inclusion (span : Span) : ReadFrom source root (.inclusion span)
  | declare (span : Span) : ReadFrom source root (.declare span)
  | other (span : Span) : ReadFrom source root (.other span)

theorem Stmt.ReadFrom.exists_span? {source : Text} {root : Node} {stmt : Stmt}
    (read : stmt.ReadFrom source root) : ∃ span, stmt.span? = some span := by
  cases read <;> exact ⟨_, rfl⟩

theorem Stmt.ReadFrom.of_mem_leaves {source : Text} {root : Node} {stmt : Stmt}
    (read : stmt.ReadFrom source root) : ∀ leaf ∈ stmt.leaves, leaf.ReadFrom source root := by
  rcases stmt.nspace_or_plain with ⟨head, body, rfl⟩ | plain
  · cases read with
    | nspace _ each => exact each
  · simpa [Stmt.leaves_of_not_isNamespace plain] using read

theorem Stmt.ReadFrom.of_mem_classes {source : Text} {root : Node} {stmt : Stmt}
    (read : stmt.ReadFrom source root) : ∀ decl ∈ stmt.classes, decl.ReadFrom source root := by
  cases read with
  | classLike read => simpa [Stmt.classes] using read
  | enclosing span each => exact each
  | nspace | uses | inclusion | declare | other => simp [Stmt.classes]

namespace PendingDoc

variable {source : Text} {root : Node} {pending : PendingDoc}

theorem readFrom_docFor (waits : ∀ doc ∈ pending.doc, doc.ReadFrom source root) (start : Nat) :
    ∀ doc ∈ pending.docFor source start, doc.ReadFrom source root := by
  rw [docFor]
  split
  · exact waits
  · simp

theorem readFrom_observe {node : Node} (inTree : node ∈ root.nodes)
    (waits : ∀ doc ∈ pending.doc, doc.ReadFrom source root) :
    ∀ doc ∈ (pending.observe source node).doc, doc.ReadFrom source root := by
  rw [observe]
  split
  next comment =>
    dsimp only
    split
    next isDoc =>
      intro doc member
      obtain rfl : ⟨some node.span, node.text source⟩ = doc := by simpa using member
      exact ⟨isDoc, node, inTree, comment, rfl⟩
    next => exact waits
  next => simp

theorem readFrom_empty : ∀ doc ∈ PendingDoc.empty.doc, doc.ReadFrom source root := by
  simp [empty]

end PendingDoc

namespace Node

variable {source : Text} {root : Node}

theorem readFrom_toDeclaration (node : Node) {doc : Option DocComment}
    (read : ∀ found ∈ doc, found.ReadFrom source root) :
    (node.toDeclaration source doc).ReadFrom source root where
  groups := by
    intro group member
    obtain ⟨inner, -, rfl⟩ := List.mem_map.1 member
    rfl
  doc := read

theorem readFrom_methodsOf {siblings : List Node} {pending : PendingDoc}
    (inTree : ∀ node ∈ siblings, node ∈ root.nodes)
    (waits : ∀ doc ∈ pending.doc, doc.ReadFrom source root) :
    ∀ decl ∈ methodsOf source pending siblings, decl.ReadFrom source root := by
  induction siblings generalizing pending with
  | nil => simp [methodsOf]
  | cons member rest ih =>
      have later := ih (fun node inside => inTree node (by simp [inside]))
        (PendingDoc.readFrom_observe (inTree member (by simp)) waits)
      simp only [methodsOf]
      split
      · exact List.forall_mem_cons.2
          ⟨readFrom_toDeclaration member (PendingDoc.readFrom_docFor waits _), later⟩
      · exact later

theorem readFrom_toClass {node : Node} (kind : ClassKind) {doc : Option DocComment}
    (inTree : node ∈ root.nodes) (read : ∀ found ∈ doc, found.ReadFrom source root) :
    (node.toClass source kind doc).ReadFrom source root := by
  refine List.forall_mem_cons.2 ⟨readFrom_toDeclaration node read, ?_⟩
  refine readFrom_methodsOf (fun child member => ?_) PendingDoc.readFrom_empty
  cases found : (node.child? .members).or (node.child? .enumMembers) with
  | none => simp [found] at member
  | some body =>
      have inBody : child ∈ body.children := by simpa [found] using member
      have inNode : body ∈ node.children := by
        rcases Option.or_eq_some_iff.1 found with first | ⟨-, second⟩
        · exact List.mem_of_find?_eq_some first
        · exact List.mem_of_find?_eq_some second
      exact mem_nodes_of_mem_children (mem_nodes_of_mem_children inTree inNode) inBody

theorem readFrom_nestedClassesOf {siblings : List Node} {pending : PendingDoc}
    (inTree : ∀ node ∈ siblings, node ∈ root.nodes)
    (each : ∀ node ∈ siblings, ∀ decl ∈ node.nestedClasses source, decl.ReadFrom source root)
    (waits : ∀ doc ∈ pending.doc, doc.ReadFrom source root) :
    ∀ decl ∈ nestedClassesOf source pending siblings, decl.ReadFrom source root := by
  induction siblings generalizing pending with
  | nil => simp [nestedClassesOf]
  | cons node rest ih =>
      have here := inTree node (by simp)
      have later := ih (fun other inside => inTree other (by simp [inside]))
        (fun other inside => each other (by simp [inside]))
        (PendingDoc.readFrom_observe here waits)
      simp only [nestedClassesOf]
      split
      next kind _ =>
        exact List.forall_mem_cons.2
          ⟨readFrom_toClass kind here (PendingDoc.readFrom_docFor waits _), later⟩
      next =>
        split
        · exact later
        · exact List.forall_mem_append.2 ⟨each node (by simp), later⟩

theorem readFrom_nestedClasses {node : Node} (inTree : node ∈ root.nodes) :
    ∀ decl ∈ node.nestedClasses source, decl.ReadFrom source root := by
  induction node using induction_on with
  | step node ih =>
      have inTree' : ∀ child ∈ node.children, child ∈ root.nodes :=
        fun child member => mem_nodes_of_mem_children inTree member
      rw [nestedClasses_eq]
      exact readFrom_nestedClassesOf inTree'
        (fun child member => ih child member (inTree' child member)) PendingDoc.readFrom_empty

theorem readFrom_toStmt? {node : Node} {pending : PendingDoc} (inTree : node ∈ root.nodes)
    (waits : ∀ doc ∈ pending.doc, doc.ReadFrom source root) :
    ∀ stmt ∈ node.toStmt? source pending, stmt.ReadFrom source root := by
  intro stmt made
  have nested : ∀ decl ∈ node.nestedClasses source, decl.ReadFrom source root :=
    readFrom_nestedClasses inTree
  rw [toStmt?] at made
  split at made
  · cases made
  · split at made
    next kind _ =>
      obtain rfl := Option.some.inj made
      exact .classLike (readFrom_toClass kind inTree (PendingDoc.readFrom_docFor waits _))
    next =>
      split at made
      · obtain rfl := Option.some.inj made
        exact .uses inTree
      · obtain rfl := Option.some.inj made
        exact .declare _
      · split at made
        · obtain rfl := Option.some.inj made
          exact .inclusion _
        · split at made
          · obtain rfl := Option.some.inj made
            exact .other _
          · obtain rfl := Option.some.inj made
            exact .enclosing _ nested

theorem readFrom_pendingAfter {node : Node} {pending : PendingDoc} (inTree : node ∈ root.nodes)
    (waits : ∀ doc ∈ pending.doc, doc.ReadFrom source root) :
    ∀ doc ∈ (node.pendingAfter source pending).doc, doc.ReadFrom source root := by
  rw [pendingAfter]
  split
  · exact PendingDoc.readFrom_observe inTree waits
  · exact waits

theorem readFrom_blockStmts {siblings : List Node} {pending : PendingDoc}
    (inTree : ∀ node ∈ siblings, node ∈ root.nodes)
    (waits : ∀ doc ∈ pending.doc, doc.ReadFrom source root) :
    ∀ stmt ∈ blockStmts source pending siblings, stmt.ReadFrom source root := by
  induction siblings generalizing pending with
  | nil => simp [blockStmts]
  | cons node rest ih =>
      have here := inTree node (by simp)
      rw [blockStmts]
      refine List.forall_mem_append.2 ⟨?_, ih (fun other inside => inTree other (by simp [inside]))
        (readFrom_pendingAfter here waits)⟩
      simpa using readFrom_toStmt? here waits

theorem readFrom_toNamespace {node : Node} (inTree : node ∈ root.nodes) :
    (node.toNamespace source).ReadFrom source root := by
  rw [toNamespace]
  split
  next body found =>
    have inTree' := mem_nodes_of_mem_children inTree (List.mem_of_find?_eq_some found)
    exact .nspace _ (readFrom_blockStmts
      (fun child member => mem_nodes_of_mem_children inTree' member) PendingDoc.readFrom_empty)
  next => exact .nspace _ (by simp)

theorem readFrom_rootStmts {siblings : List Node} {pending : PendingDoc}
    (inTree : ∀ node ∈ siblings, node ∈ root.nodes)
    (waits : ∀ doc ∈ pending.doc, doc.ReadFrom source root) :
    ∀ stmt ∈ rootStmts source pending siblings, stmt.ReadFrom source root := by
  induction siblings generalizing pending with
  | nil => simp [rootStmts]
  | cons node rest ih =>
      have here := inTree node (by simp)
      have inTree' : ∀ node ∈ rest, node ∈ root.nodes :=
        fun other inside => inTree other (by simp [inside])
      rw [rootStmts]
      split
      · exact List.forall_mem_cons.2 ⟨readFrom_toNamespace here,
          ih inTree' (PendingDoc.readFrom_observe here waits)⟩
      · refine List.forall_mem_append.2 ⟨?_, ih inTree' (readFrom_pendingAfter here waits)⟩
        simpa using readFrom_toStmt? here waits

end Node

/-- Gathering moves statements into namespaces but makes no new ones. -/
theorem Stmt.readFrom_gatherFrom {source : Text} {root : Node} {stmts : List Stmt}
    (each : ∀ stmt ∈ stmts, stmt.ReadFrom source root) :
    (∀ stmt ∈ (gatherFrom stmts).1, stmt.ReadFrom source root) ∧
      ∀ stmt ∈ (gatherFrom stmts).2, stmt.ReadFrom source root := by
  induction stmts with
  | nil => simp [gatherFrom]
  | cons stmt rest ih =>
      obtain ⟨here, each⟩ := List.forall_mem_cons.1 each
      obtain ⟨loose, gathered⟩ := ih each
      rcases stmt.nspace_or_plain with ⟨head, body, rfl⟩ | plain
      · obtain ⟨-, inner⟩ := here
        rw [gatherFrom_cons_nspace]
        split
        · refine ⟨by simp, List.forall_mem_cons.2 ⟨.nspace head inner, ?_⟩⟩
          exact List.forall_mem_append.2 ⟨loose, gathered⟩
        · refine ⟨by simp, List.forall_mem_cons.2 ⟨.nspace head ?_, gathered⟩⟩
          exact List.forall_mem_append.2 ⟨inner, loose⟩
      · rw [gatherFrom_cons_of_not_isNamespace plain]
        exact ⟨List.forall_mem_cons.2 ⟨here, loose⟩, gathered⟩

/-- All statements of a unit are read off its tree. -/
theorem SourceUnit.readFrom_ofTree (source : Text) (root : Node) :
    ∀ stmt ∈ (ofTree source root).stmts, stmt.ReadFrom source root := by
  have each : ∀ stmt ∈ Node.rootStmts source .empty root.children, stmt.ReadFrom source root :=
    Node.readFrom_rootStmts
      (fun child member => Node.mem_nodes_of_mem_children root.self_mem_nodes member)
      PendingDoc.readFrom_empty
  obtain ⟨loose, gathered⟩ := Stmt.readFrom_gatherFrom each
  exact List.forall_mem_append.2 ⟨loose, gathered⟩

theorem SourceUnit.readFrom_leaves_ofTree (source : Text) (root : Node) :
    ∀ stmt ∈ (ofTree source root).stmts.flatMap Stmt.leaves, stmt.ReadFrom source root := by
  intro stmt member
  obtain ⟨top, isTop, isLeaf⟩ := List.mem_flatMap.1 member
  exact (readFrom_ofTree source root top isTop).of_mem_leaves stmt isLeaf

theorem SourceUnit.isSome_span?_ofTree (source : Text) (root : Node) :
    ∀ stmt ∈ (ofTree source root).stmts, stmt.span?.isSome := by
  intro stmt member
  obtain ⟨span, spanned⟩ := (readFrom_ofTree source root stmt member).exists_span?
  simp [spanned]

end TagLift
