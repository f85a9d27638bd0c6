import TagLift.Proofs.Tree.Placed

/-!
# Where statements lie

The statements that are read off a well-formed tree follow each other, those in the body of a
namespace included. Each has the span of its node, a class that of its doc comment and its node,
and no two of them have the same span.
-/

namespace TagLift

namespace Stmt

/-- The declarations of the classes of a statement. -/
def declarations (stmt : Stmt) : List Declaration :=
  stmt.classes.flatMap ClassDecl.declarations

/-- A statement has a span that starts and stops where nodes do, with its declarations inside. -/
structure Stands (source : Text) (root : Node) (span : Span) (stmt : Stmt) : Prop where
  spanned : stmt.span? = some span
  starts : ∃ node ∈ root.nodes, node.span.start = span.start
  stops : ∃ node ∈ root.nodes, node.span.stop = span.stop
  order : span.start ≤ span.stop
  placed : Placed source root span.start span.stop stmt.declarations
  plain : stmt.isNamespace = false

/-- A statement is inline text that has no white space in front, or none at its start. -/
structure Opens (source : Text) (span : Span) (stmt : Stmt) : Prop where
  notUse : stmt.isUse = false
  notPreamble : stmt.isPreamble = false
  first : (Text.takeBytes span.start source).all (!isBlank ·) ∨
    span.start < span.stop ∧ Text.startsSolid span.start source

/-- Statements that follow each other between two offsets. The first one may be opening text, all
others start and end with a character other than white space. -/
def Lined (source : Text) (root : Node) : Bool → Nat → Nat → List Stmt → Prop
  | _, lo, hi, [] => lo ≤ hi
  | opening, lo, hi, stmt :: rest =>
      ∃ span : Span, lo ≤ span.start ∧ stmt.Stands source root span ∧
        (Node.Solid source span ∨ opening ∧ stmt.Opens source span) ∧
        Lined source root false span.stop hi rest

namespace Lined

variable {source : Text} {root : Node} {opening : Bool} {lo mid hi : Nat}
  {stmts others : List Stmt}

theorem mono {lo' hi' : Nat} (lower : lo' ≤ lo) (upper : hi ≤ hi')
    (lined : Lined source root opening lo hi stmts) :
    Lined source root opening lo' hi' stmts := by
  induction stmts generalizing opening lo lo' with
  | nil => exact Nat.le_trans lower (Nat.le_trans lined upper)
  | cons stmt stmts ih =>
      obtain ⟨span, starts, stands, solid, rest⟩ := lined
      exact ⟨span, Nat.le_trans lower starts, stands, solid, ih (Nat.le_refl _) rest⟩

theorem may_open (lined : Lined source root false lo hi stmts) :
    Lined source root opening lo hi stmts := by
  cases stmts with
  | nil => exact lined
  | cons stmt stmts =>
      obtain ⟨span, starts, stands, solid | ⟨impossible, -⟩, rest⟩ := lined
      · exact ⟨span, starts, stands, .inl solid, rest⟩
      · cases impossible

theorem append (first : Lined source root opening lo mid stmts)
    (second : Lined source root false mid hi others) :
    Lined source root opening lo hi (stmts ++ others) := by
  induction stmts generalizing opening lo with
  | nil => exact (second.mono first (Nat.le_refl _)).may_open
  | cons stmt stmts ih =>
      obtain ⟨span, starts, stands, solid, rest⟩ := first
      exact ⟨span, starts, stands, solid, ih rest⟩

end Lined

/-- The statements that a statement holds or is. -/
def leaves : Stmt → List Stmt
  | .nspace _ body => body
  | stmt => [stmt]

theorem leaves_of_not_isNamespace {stmt : Stmt} (plain : stmt.isNamespace = false) :
    stmt.leaves = [stmt] := by
  cases stmt <;> simp_all [leaves, isNamespace]

theorem flatMap_leaves_of_not_isNamespace {stmts : List Stmt}
    (plain : ∀ stmt ∈ stmts, stmt.isNamespace = false) : stmts.flatMap leaves = stmts := by
  induction stmts with
  | nil => rfl
  | cons stmt stmts ih =>
      rw [List.flatMap_cons, leaves_of_not_isNamespace (plain stmt (by simp)),
        ih fun other member => plain other (by simp [member]), List.singleton_append]

/-- Statements that follow each other between two offsets, namespaces among them. -/
def Rooted (source : Text) (root : Node) : Bool → Nat → Nat → List Stmt → Prop
  | _, lo, hi, [] => lo ≤ hi
  | opening, lo, hi, stmt :: rest =>
      ∃ span : Span, lo ≤ span.start ∧ stmt.span? = some span ∧
        Lined source root opening span.start span.stop stmt.leaves ∧
        (span.start < span.stop ∨ opening) ∧ Rooted source root false span.stop hi rest

namespace Rooted

variable {source : Text} {root : Node} {opening : Bool} {lo hi : Nat} {stmts : List Stmt}

theorem lined_leaves (rooted : Rooted source root opening lo hi stmts) :
    Lined source root opening lo hi (stmts.flatMap leaves) := by
  induction stmts generalizing opening lo with
  | nil => exact rooted
  | cons stmt stmts ih =>
      obtain ⟨span, starts, -, lined, -, rest⟩ := rooted
      rw [List.flatMap_cons]
      exact (lined.mono starts (Nat.le_refl _)).append (ih rest)

theorem may_open (rooted : Rooted source root false lo hi stmts) :
    Rooted source root opening lo hi stmts := by
  cases stmts with
  | nil => exact rooted
  | cons stmt stmts =>
      obtain ⟨span, starts, spanned, lined, filled | impossible, rest⟩ := rooted
      · exact ⟨span, starts, spanned, lined.may_open, .inl filled, rest⟩
      · cases impossible

theorem exists_of_mem (rooted : Rooted source root false lo hi stmts) {stmt : Stmt}
    (member : stmt ∈ stmts) :
    ∃ span, stmt.span? = some span ∧ lo ≤ span.start ∧ span.start < span.stop := by
  induction stmts generalizing lo with
  | nil => cases member
  | cons first stmts ih =>
      obtain ⟨span, starts, spanned, lined, filled | impossible, rest⟩ := rooted
      · rcases List.mem_cons.1 member with rfl | later
        · exact ⟨span, spanned, starts, filled⟩
        · obtain ⟨other, spanned', starts', filled'⟩ := ih rest later
          exact ⟨other, spanned', by omega, filled'⟩
      · cases impossible

/-- No two statements have the same span. -/
theorem pairwise_span?_ne (rooted : Rooted source root opening lo hi stmts) :
    stmts.Pairwise fun a b => a.span? ≠ b.span? := by
  induction stmts generalizing opening lo with
  | nil => exact .nil
  | cons stmt stmts ih =>
      obtain ⟨span, -, spanned, -, -, rest⟩ := rooted
      refine List.pairwise_cons.2 ⟨fun later member same => ?_, ih rest⟩
      obtain ⟨span', spanned', starts', filled'⟩ := rest.exists_of_mem member
      rw [spanned, spanned', Option.some.injEq] at same
      rw [same] at starts'
      omega

end Rooted

end Stmt

namespace Node

/-- What is made of a node: its class, or a statement with the node's span and with no classes or
those inside the node. -/
theorem toStmt?_cases {source : Text} {node : Node} {pending : PendingDoc} {stmt : Stmt}
    (made : node.toStmt? source pending = some stmt) :
    (node.named ∧ node.kind ≠ .comment ∧ node.kind ≠ .openTag) ∧
      ((∃ kind, node.classKind? = some kind ∧ stmt = .classLike
          (node.toClass source kind (pending.docFor source node.span.start))) ∨
        stmt.span? = some node.span ∧ stmt.isNamespace = false ∧
          (stmt.classes = [] ∨ stmt.classes = node.nestedClasses source) ∧
          (node.kind = .literal → stmt.isUse = false ∧ stmt.isPreamble = false)) := by
  rw [toStmt?] at made
  split at made
  · cases made
  next proper =>
    simp only [not_or, Bool.not_eq_eq_eq_not] at proper
    refine ⟨⟨by simpa using proper.2.2, proper.1, proper.2.1⟩, ?_⟩
    split at made
    next kind isClass => exact .inl ⟨kind, isClass, (Option.some.inj made).symm⟩
    next =>
      right
      split at made
      next use =>
        obtain rfl := Option.some.inj made
        exact ⟨rfl, rfl, .inl rfl, by simp [use]⟩
      next declare =>
        obtain rfl := Option.some.inj made
        exact ⟨rfl, rfl, .inl rfl, by simp [declare]⟩
      next =>
        split at made
        next inclusion =>
          obtain rfl := Option.some.inj made
          exact ⟨rfl, rfl, .inl rfl, by simp [inclusion.1]⟩
        next =>
          split at made
          · obtain rfl := Option.some.inj made
            exact ⟨rfl, rfl, .inl rfl, fun _ => ⟨rfl, rfl⟩⟩
          · obtain rfl := Option.some.inj made
            exact ⟨rfl, rfl, .inr rfl, fun _ => ⟨rfl, rfl⟩⟩

/-- Behind a statement nothing waits. -/
theorem pendingAfter_doc_of_toStmt? {source : Text} {node : Node} {pending : PendingDoc}
    {stmt : Stmt} (made : node.toStmt? source pending = some stmt) :
    (node.pendingAfter source pending).doc = none := by
  obtain ⟨⟨named, notComment, notTag⟩, -⟩ := toStmt?_cases made
  rw [pendingAfter, if_pos (.inr ⟨named, notTag⟩)]
  exact PendingDoc.observe_doc_of_not_comment source notComment

theorem isStatement_of_toStmt? {source : Text} {node : Node} {pending : PendingDoc} {stmt : Stmt}
    (made : node.toStmt? source pending = some stmt) : node.isStatement := by
  obtain ⟨⟨named, notComment, notTag⟩, -⟩ := toStmt?_cases made
  simp [isStatement, named, notComment, notTag]

section Lowered

variable {source : Text} {root : Node} (formed : WellFormed source root)

include formed

/-- The span of a class starts at a node: its doc comment, or else its own. -/
theorem fullSpan_toDeclaration {node : Node} {doc : Option DocComment} {lo : Nat}
    (inTree : node ∈ root.nodes) (solid : Solid source node.span) (starts : lo ≤ node.span.start)
    (waits : DocBetween root lo node.span.start doc) :
    ∃ start, (node.toDeclaration source doc).fullSpan = ⟨start, node.span.stop⟩ ∧ lo ≤ start ∧
      start ≤ node.span.start ∧ Text.startsSolid start source ∧
      (∃ other ∈ root.nodes, other.span.start = start) ∧
      DocBetween root start node.span.start doc := by
  cases doc with
  | none =>
      exact ⟨node.span.start, rfl, starts, Nat.le_refl _, solid.starts, ⟨node, inTree, rfl⟩,
        docBetween_none root _ _⟩
  | some found =>
      obtain ⟨comment, inTree', kind, span, lower, upper⟩ := waits found rfl
      have filled := formed.solid comment inTree' (.inl kind)
      have before : comment.span.start ≤ node.span.start :=
        Nat.le_trans (Nat.le_of_lt filled.filled) upper
      refine ⟨comment.span.start, ?_, lower, before, filled.starts, ⟨comment, inTree', rfl⟩, ?_⟩
      · simp only [Declaration.fullSpan, toDeclaration, Option.bind_some, span,
          Nat.min_eq_left before]
      · intro other member
        obtain rfl : found = other := by simpa using member
        exact ⟨comment, inTree', kind, span, Nat.le_refl _, upper⟩

/-- The statement of a node that is no class has the node's span. -/
theorem stands_of_span {node : Node} {stmt : Stmt} (inTree : node ∈ root.nodes)
    (spanned : stmt.span? = some node.span) (plain : stmt.isNamespace = false)
    (placed : Placed source root node.span.start node.span.stop stmt.declarations) :
    stmt.Stands source root node.span :=
  ⟨spanned, ⟨node, inTree, rfl⟩, ⟨node, inTree, rfl⟩, (formed.bounds node inTree).2.2, placed,
    plain⟩

/-- What is made of a node stands where the node and its doc comment do. -/
theorem stands_toStmt? {node : Node} {pending : PendingDoc} {stmt : Stmt} {lo pos : Nat}
    (inTree : node ∈ root.nodes) (waits : DocBetween root lo pos pending.doc) (order : lo ≤ pos)
    (starts : pos ≤ node.span.start) (made : node.toStmt? source pending = some stmt) :
    ∃ span : Span, lo ≤ span.start ∧ span.stop = node.span.stop ∧
      stmt.Stands source root span ∧ (Solid source node.span → Solid source span) ∧
      (node.opensFile source → stmt.Opens source span) := by
  obtain ⟨-, ⟨kind, isClass, rfl⟩ | ⟨spanned, plain, classes, literal⟩⟩ := toStmt?_cases made
  · have isClass' : node.classKind?.isSome := by simp [isClass]
    have solid := formed.solid node inTree (.inr (.inr isClass'))
    have doc := PendingDoc.docBetween_docFor source waits starts
    obtain ⟨start, full, lower, upper, starts', isNode, doc'⟩ :=
      fullSpan_toDeclaration formed inTree solid (Nat.le_trans order starts) doc
    have filled : start < node.span.stop := Nat.lt_of_le_of_lt upper solid.filled
    refine ⟨⟨start, node.span.stop⟩, lower, rfl, ?_, fun _ => ⟨filled, starts', solid.ends⟩, ?_⟩
    · refine ⟨congrArg some full, isNode, ⟨node, inTree, rfl⟩, Nat.le_of_lt filled, ?_, rfl⟩
      simp only [Stmt.declarations, Stmt.classes, List.flatMap_singleton]
      exact placed_toClass formed inTree isClass' upper doc'
    · intro opens
      simp only [opensFile, Bool.and_eq_true, beq_iff_eq] at opens
      simp [classKind?, opens.1] at isClass
  · refine ⟨node.span, Nat.le_trans order starts, rfl, ?_, id, ?_⟩
    · refine stands_of_span formed inTree spanned plain ?_
      rw [Stmt.declarations]
      rcases classes with none | nested
      · rw [none]
        exact placed_nil (formed.bounds node inTree).2.2
      · rw [nested]
        exact placed_nestedClasses formed inTree
    · intro opens
      simp only [opensFile, Bool.and_eq_true, Bool.or_eq_true, beq_iff_eq, decide_eq_true_eq]
        at opens
      exact ⟨(literal opens.1).1, (literal opens.1).2, opens.2⟩

/-- What waits behind a sibling lies in front of the next one. -/
theorem docBetween_pendingAfter {node : Node} {pending : PendingDoc} {lo pos : Nat}
    (inTree : node ∈ root.nodes) (waits : DocBetween root lo pos pending.doc) (order : lo ≤ pos)
    (starts : pos ≤ node.span.start) :
    DocBetween root lo node.span.stop (node.pendingAfter source pending).doc := by
  have stops := (formed.bounds node inTree).2.2
  rw [pendingAfter]
  split
  · exact PendingDoc.docBetween_observe source inTree waits order starts stops
  · exact waits.mono (Nat.le_refl _) (Nat.le_trans starts stops)

/-- The statements of a block follow each other. -/
theorem lined_blockStmts {siblings : List Node} {pending : PendingDoc} {lo pos hi : Nat}
    (inTree : ∀ node ∈ siblings, node ∈ root.nodes)
    (solid : ∀ node ∈ siblings, node.isStatement → Solid source node.span)
    (ascending : Span.Ascending pos hi (siblings.map (·.span)))
    (waits : DocBetween root lo pos pending.doc) (order : lo ≤ pos) :
    Stmt.Lined source root false lo hi (blockStmts source pending siblings) := by
  induction siblings generalizing pending lo pos with
  | nil => exact Nat.le_trans order ascending
  | cons node rest ih =>
      obtain ⟨starts, stops, ascending⟩ := ascending
      have here := inTree node (by simp)
      have inTree' : ∀ node ∈ rest, node ∈ root.nodes :=
        fun other later => inTree other (by simp [later])
      have solid' : ∀ node ∈ rest, node.isStatement → Solid source node.span :=
        fun other later => solid other (by simp [later])
      rw [blockStmts]
      cases made : node.toStmt? source pending with
      | none =>
          exact ih inTree' solid' ascending (docBetween_pendingAfter formed here waits order starts)
            (Nat.le_trans order (Nat.le_trans starts stops))
      | some stmt =>
          obtain ⟨span, lower, upper, stands, keeps, -⟩ :=
            stands_toStmt? formed here waits order starts made
          refine ⟨span, lower, stands,
            .inl (keeps (solid node (by simp) (isStatement_of_toStmt? made))), ?_⟩
          rw [upper]
          refine ih inTree' solid' ascending ?_ (Nat.le_refl _)
          rw [pendingAfter_doc_of_toStmt? made]
          exact docBetween_none root _ _

/-- A namespace with a block holds statements that follow each other inside it, and one that ends
in a semicolon holds none. -/
theorem lined_toNamespace {node : Node} (inTree : node ∈ root.nodes) (kind : node.kind = .nspace)
    (solid : ∀ child ∈ node.blockStatements, Solid source child.span) :
    ∃ head body, node.toNamespace source = .nspace head body ∧ head.span = node.span ∧
      Stmt.Lined source root false node.span.start node.span.stop body := by
  rw [blockStatements, if_pos kind] at solid
  rw [toNamespace]
  split
  next body found =>
    have member := List.mem_of_find?_eq_some found
    have inTree' := mem_nodes_of_mem_children inTree member
    have inside := formed.nested node inTree body member
    refine ⟨_, _, rfl, rfl, (lined_blockStmts formed ?_ ?_ (formed.ascending_children inTree')
      (docBetween_none root body.span.start _) (Nat.le_refl _)).mono inside.1 inside.2⟩
    · exact fun child inner => mem_nodes_of_mem_children inTree' inner
    · intro child inner isStatement
      exact solid child (by simp [found, inner, isStatement])
  next => exact ⟨_, _, rfl, rfl, (formed.bounds node inTree).2.2⟩

/-- The statements of the root follow each other. -/
theorem rooted_rootStmts {siblings : List Node} {pending : PendingDoc} {opening : Bool}
    {lo pos hi : Nat} (inTree : ∀ node ∈ siblings, node ∈ root.nodes)
    (first : ∀ node ∈ siblings.take 1, node.isStatement →
      Solid source node.span ∨ opening ∧ node.opensFile source)
    (later : ∀ node ∈ siblings.drop 1, node.isStatement → Solid source node.span)
    (inner : ∀ node ∈ siblings, ∀ child ∈ node.blockStatements, Solid source child.span)
    (ascending : Span.Ascending pos hi (siblings.map (·.span)))
    (waits : DocBetween root lo pos pending.doc) (order : lo ≤ pos) :
    Stmt.Rooted source root opening lo hi (rootStmts source pending siblings) := by
  induction siblings generalizing pending opening lo pos with
  | nil => exact Nat.le_trans order ascending
  | cons node rest ih =>
      obtain ⟨starts, stops, ascending⟩ := ascending
      have here := inTree node (by simp)
      have starts' := Nat.le_trans order starts
      -- Only the first sibling may be opening text.
      have rest' {pending : PendingDoc} {lo : Nat}
          (waits : DocBetween root lo node.span.stop pending.doc) (order : lo ≤ node.span.stop) :
          Stmt.Rooted source root false lo hi (rootStmts source pending rest) := by
        refine ih (fun other member => inTree other (by simp [member])) ?_ ?_
          (fun other member => inner other (by simp [member])) ascending waits order
        · exact fun other member isStatement =>
            .inl (later other (by simpa using List.mem_of_mem_take member) isStatement)
        · exact fun other member isStatement =>
            later other (by simpa using List.mem_of_mem_drop member) isStatement
      have solid := first node (by simp)
      rw [rootStmts]
      split
      next kind =>
        obtain ⟨head, body, made, span, lined⟩ :=
          lined_toNamespace formed here kind (inner node (by simp))
        rw [made]
        refine ⟨node.span, starts', congrArg some span, lined.may_open, ?_, ?_⟩
        · rcases solid (by simp [isStatement, kind]) with filled | ⟨opens, -⟩
          · exact .inl filled.filled
          · exact .inr opens
        · refine rest' ?_ (Nat.le_refl _)
          rw [PendingDoc.observe_doc_of_not_comment source (by simp [kind])]
          exact docBetween_none root _ _
      next =>
        cases made : node.toStmt? source pending with
        | none =>
            exact (rest' (docBetween_pendingAfter formed here waits order starts)
              (Nat.le_trans starts' stops)).may_open
        | some stmt =>
            obtain ⟨span, lower, upper, stands, keeps, opens⟩ :=
              stands_toStmt? formed here waits order starts made
            refine ⟨span, lower, stands.spanned, ?_, ?_, ?_⟩
            · rw [Stmt.leaves_of_not_isNamespace stands.plain]
              refine ⟨span, Nat.le_refl _, stands, ?_, Nat.le_refl _⟩
              exact (solid (isStatement_of_toStmt? made)).imp keeps fun both =>
                ⟨both.1, opens both.2⟩
            · rcases solid (isStatement_of_toStmt? made) with filled | ⟨opens, -⟩
              · exact .inl (keeps filled).filled
              · exact .inr opens
            · rw [upper]
              refine rest' ?_ (Nat.le_refl _)
              rw [pendingAfter_doc_of_toStmt? made]
              exact docBetween_none root _ _

end Lowered

end Node

namespace Stmt

theorem gatherFrom_cons_nspace (head : NamespaceHead) (body rest : List Stmt) :
    gatherFrom (.nspace head body :: rest) =
      if head.braced then ([], .nspace head body :: (gatherFrom rest).1 ++ (gatherFrom rest).2)
      else ([], .nspace head (body ++ (gatherFrom rest).1) :: (gatherFrom rest).2) :=
  rfl

theorem gatherFrom_cons_of_not_isNamespace {stmt : Stmt} (plain : stmt.isNamespace = false)
    (rest : List Stmt) :
    gatherFrom (stmt :: rest) = (stmt :: (gatherFrom rest).1, (gatherFrom rest).2) := by
  cases stmt with
  | nspace head body => cases plain
  | uses | classLike | enclosing | inclusion | declare | other => rfl

theorem flatMap_leaves_gatherFrom_fst (stmts : List Stmt) :
    (gatherFrom stmts).1.flatMap leaves = (gatherFrom stmts).1 := by
  induction stmts with
  | nil => rfl
  | cons stmt rest ih =>
      rcases stmt.nspace_or_plain with ⟨head, body, rfl⟩ | plain
      · rw [gatherFrom_cons_nspace]
        split <;> rfl
      · rw [gatherFrom_cons_of_not_isNamespace plain, List.flatMap_cons, ih,
          leaves_of_not_isNamespace plain, List.singleton_append]

/-- Gathering leaves the statements in their order. -/
theorem flatMap_leaves_gather (stmts : List Stmt) :
    (gather stmts).flatMap leaves = stmts.flatMap leaves := by
  simp only [gather, List.flatMap_append, flatMap_leaves_gatherFrom_fst]
  induction stmts with
  | nil => rfl
  | cons stmt rest ih =>
      rw [List.flatMap_cons, ← ih]
      rcases stmt.nspace_or_plain with ⟨head, body, rfl⟩ | plain
      · rw [gatherFrom_cons_nspace]
        split
        · simp [leaves, flatMap_leaves_gatherFrom_fst]
        · simp [leaves]
      · rw [gatherFrom_cons_of_not_isNamespace plain, leaves_of_not_isNamespace plain]
        rfl

/-- Gathering gives no statement a new span. -/
theorem map_span?_gather_sublist (stmts : List Stmt) :
    ((gather stmts).map span?).Sublist (stmts.map span?) := by
  simp only [gather, List.map_append]
  induction stmts with
  | nil => exact .slnil
  | cons stmt rest ih =>
      rcases stmt.nspace_or_plain with ⟨head, body, rfl⟩ | plain
      · rw [gatherFrom_cons_nspace]
        split
        · simpa [span?] using ih
        · simpa [span?] using (List.sublist_append_right _ _).trans ih
      · rw [gatherFrom_cons_of_not_isNamespace plain]
        exact ih.cons_cons _

end Stmt

namespace SourceUnit

variable {source : Text} {root : Node} (formed : root.WellFormed source)

include formed

theorem rooted_ofTree :
    Stmt.Rooted source root true root.span.start root.span.stop
      (Node.rootStmts source .empty root.children) := by
  refine Node.rooted_rootStmts formed ?_ ?_ formed.later formed.inner
    (formed.ascending_children root.self_mem_nodes) (docBetween_none root root.span.start _)
    (Nat.le_refl _)
  · exact fun child member => Node.mem_nodes_of_mem_children root.self_mem_nodes member
  · intro node member isStatement
    exact (formed.first node member isStatement).imp id fun opens => ⟨rfl, opens⟩

/-- The statements of a tree follow each other, those of namespaces included. -/
theorem lined_ofTree :
    Stmt.Lined source root true root.span.start root.span.stop
      ((ofTree source root).stmts.flatMap Stmt.leaves) := by
  have lined := (rooted_ofTree formed).lined_leaves
  rw [← Stmt.flatMap_leaves_gather] at lined
  exact lined

/-- No two statements of a tree have the same span. -/
theorem pairwise_span?_ne_ofTree :
    (ofTree source root).stmts.Pairwise fun a b => a.span? ≠ b.span? := by
  have distinct := List.pairwise_map.2 (rooted_ofTree formed).pairwise_span?_ne
  exact List.pairwise_map.1 (distinct.sublist (Stmt.map_span?_gather_sublist _))

end SourceUnit

end TagLift
