import TagLift.Proofs.Tree.Spans
import Mathlib.Data.List.Forall2

/-!
# Statements stand for nodes

Reading a tree loses, repeats and reorders no statement: every statement node of the root has one
entry with its span. A namespace that ends in a semicolon owns the entries up to the next namespace,
and one with a block those of its block. With their doc comments the statements of a list follow
each other.
-/

namespace TagLift

namespace Stmt

/-- The span of a statement, without the doc comment of a class. -/
def ownSpan? : Stmt → Option Span
  | .classLike decl => some decl.decl.span
  | stmt => stmt.span?

/-- The form of a statement that is a class. -/
def classKind? : Stmt → Option ClassKind
  | .classLike decl => some decl.kind
  | _ => none

/-- A statement as entries: a namespace that ends in a semicolon is its head and what it owns. -/
def entries : Stmt → List Stmt
  | .nspace head body => if head.braced then [.nspace head body] else .nspace head [] :: body
  | stmt => [stmt]

/-- Statements have spans that follow each other, with the doc comments of classes. -/
structure InOrder (stmts : List Stmt) : Prop where
  spanned : ∀ stmt ∈ stmts, stmt.span?.isSome
  inOrder : stmts.Pairwise fun a b => ∀ left ∈ a.span?, ∀ right ∈ b.span?, left.Before right

/-- The classes of a statement follow each other inside of it, and so do their methods inside of
them. -/
structure ClassesInOrder (stmt : Stmt) : Prop where
  inside : ∀ span ∈ stmt.span?, ∀ decl ∈ stmt.classes, decl.decl.fullSpan.Within span
  inOrder : stmt.classes.Pairwise fun a b => a.decl.span.Before b.decl.span
  methods : ∀ decl ∈ stmt.classes, decl.MethodsInOrder

end Stmt

namespace Node

/-- Whether a node in a block becomes a statement. -/
def isBlockStatement (node : Node) : Bool :=
  node.named && node.kind != .comment && node.kind != .openTag

/-- A statement that is no namespace has the span of a node, and is a class if the node is. -/
structure StandsFor (node : Node) (stmt : Stmt) : Prop where
  span : stmt.ownSpan? = some node.span
  plain : stmt.isNamespace = false
  kind : stmt.classKind? = node.classKind?

/-- The entry of a node of the root. -/
inductive HasEntry (node : Node) : Stmt → Prop where
  | plain {stmt : Stmt} (other : node.kind ≠ .nspace) (stands : node.StandsFor stmt) :
      HasEntry node stmt
  | header (isNamespace : node.kind = .nspace) (noBody : node.child? .block = none) :
      HasEntry node (.nspace ⟨node.span, node.span.stop, false⟩ [])
  | block {body : Node} {bodyStart : Nat} {stmts : List Stmt} (isNamespace : node.kind = .nspace)
      (isBody : node.child? .block = some body)
      (stands : List.Forall₂ StandsFor (body.children.filter isBlockStatement) stmts) :
      HasEntry node (.nspace ⟨node.span, bodyStart, true⟩ stmts)

/-! ## One statement per node -/

theorem toStmt?_of_not_isBlockStatement {source : Text} {pending : PendingDoc} {node : Node}
    (dropped : node.isBlockStatement = false) : node.toStmt? source pending = none := by
  rw [toStmt?, if_pos]
  cases named : node.named <;> by_cases comment : node.kind = .comment <;>
    simp_all [isBlockStatement]

/-- A node that becomes a statement becomes one that stands for it. -/
theorem exists_toStmt?_of_isBlockStatement (source : Text) (pending : PendingDoc) {node : Node}
    (kept : node.isBlockStatement) :
    ∃ stmt, node.toStmt? source pending = some stmt ∧ node.StandsFor stmt := by
  have proper : ¬(node.kind = .comment ∨ node.kind = .openTag ∨ !node.named) := by
    simp_all [isBlockStatement]
  rw [toStmt?, if_neg proper]
  split
  next kind isClass => exact ⟨_, rfl, rfl, rfl, isClass.symm⟩
  next other =>
    repeat' split
    all_goals exact ⟨_, rfl, rfl, rfl, other.symm⟩

/-- A statement has the span of the node at a place, or that with the doc comment. -/
def Place.Spans (source : Text) (counts : Node → Bool) (place : Place) (stmt : Stmt) : Prop :=
  stmt.span? = some place.node.span ∨ stmt.span? = some (place.fullSpan source counts)

namespace Place.Spans

variable {source : Text} {counts : Node → Bool} {place : Place} {stmt : Stmt}

theorem of_toStmt?
    (made : place.node.toStmt? source (trail source counts place.before) = some stmt) :
    place.Spans source counts stmt := by
  obtain ⟨-, ⟨kind, -, rfl⟩ | ⟨span, -⟩⟩ := toStmt?_cases made
  · exact .inr rfl
  · exact .inl span

theorem exists_span (spans : place.Spans source counts stmt) :
    ∃ span, stmt.span? = some span ∧ span.stop = place.node.span.stop ∧
      (place.fullSpan source counts).start ≤ span.start := by
  rcases spans with own | full
  · exact ⟨_, own, rfl, fullSpan_start_le⟩
  · exact ⟨_, full, fullSpan_stop, Nat.le_refl _⟩

end Place.Spans

/-- At the place of a node that is kept there is one statement, and at any other there is none. -/
structure OnePer (keeps : Node → Bool) (rel : Place → Stmt → Prop) (item : Place → List Stmt) :
    Prop where
  kept : ∀ place : Place, keeps place.node → ∃ stmt, item place = [stmt] ∧ rel place stmt
  dropped : ∀ place : Place, keeps place.node = false → item place = []

namespace OnePer

variable {source : Text} {keeps counts : Node → Bool} {stands : Node → Stmt → Prop}
  {item : Place → List Stmt}
  (one : OnePer keeps (fun place stmt => stands place.node stmt ∧ place.Spans source counts stmt)
    item)

include one

/-- The statements of siblings stand for the nodes that are kept. -/
theorem forall₂ (siblings : List Node) :
    List.Forall₂ stands (siblings.filter keeps) ((places siblings).flatMap item) := by
  suffices general : ∀ before,
      List.Forall₂ stands (siblings.filter keeps) ((placesFrom before siblings).flatMap item) from
    general []
  induction siblings with
  | nil => exact fun _ => .nil
  | cons node rest ih =>
      intro before
      rw [placesFrom, List.flatMap_cons, List.filter_cons]
      split
      next keep =>
        obtain ⟨stmt, only, related, -⟩ := one.kept ⟨before, node⟩ keep
        rw [only]
        exact .cons related (ih _)
      next drop =>
        rw [one.dropped ⟨before, node⟩ (Bool.eq_false_iff.2 drop)]
        exact ih _

theorem of_mem {place : Place} {stmt : Stmt} (member : stmt ∈ item place) :
    keeps place.node ∧ stands place.node stmt ∧ place.Spans source counts stmt := by
  cases keep : keeps place.node with
  | false =>
      rw [one.dropped place keep] at member
      cases member
  | true =>
      obtain ⟨only, found, related⟩ := one.kept place keep
      rw [found, List.mem_singleton] at member
      exact ⟨rfl, member ▸ related⟩

theorem pairwise_item (place : Place) {rel : Stmt → Stmt → Prop} : (item place).Pairwise rel := by
  cases keep : keeps place.node with
  | false =>
      rw [one.dropped place keep]
      exact .nil
  | true =>
      obtain ⟨only, found, -⟩ := one.kept place keep
      rw [found]
      exact List.pairwise_singleton _ _

/-- The statements of siblings that follow each other do so, with the doc comments of classes. -/
theorem inOrder (counted : ∀ node, keeps node → counts node ∧ node.kind ≠ .comment)
    {siblings : List Node} (ordered : siblings.Pairwise fun a b => a.span.Before b.span) :
    Stmt.InOrder ((places siblings).flatMap item) := by
  constructor
  · intro stmt member
    obtain ⟨place, -, inPlace⟩ := List.mem_flatMap.1 member
    obtain ⟨span, isSpan, -⟩ := (one.of_mem inPlace).2.2.exists_span
    simp [isSpan]
  · refine pairwise_flatMap_places (fun place _ => one.pairwise_item place) ?_
    intro first _ second isSecond between behind a inFirst b inSecond left isLeft right isRight
    obtain ⟨keep, -, spans⟩ := one.of_mem inFirst
    obtain ⟨left', isLeft', stop, -⟩ := spans.exists_span
    obtain ⟨right', isRight', -, start⟩ := (one.of_mem inSecond).2.2.exists_span
    obtain rfl := Option.some.inj (isLeft.symm.trans isLeft')
    obtain rfl := Option.some.inj (isRight.symm.trans isRight')
    calc left.stop
      _ = first.node.span.stop := stop
      _ ≤ (second.fullSpan source counts).start :=
        Place.before_fullSpan ordered isSecond behind (counted _ keep).1 (counted _ keep).2
      _ ≤ right.start := start

end OnePer

theorem onePer_blockStmts (source : Text) :
    OnePer isBlockStatement
      (fun place stmt => place.node.StandsFor stmt ∧ place.Spans source countsInBlock stmt)
      (Place.blockStmts source) := by
  constructor
  · intro place kept
    obtain ⟨stmt, made, stands⟩ := exists_toStmt?_of_isBlockStatement source
      (trail source countsInBlock place.before) kept
    exact ⟨stmt, by simp [Place.blockStmts, made], stands, .of_toStmt? made⟩
  · intro place dropped
    simp [Place.blockStmts, toStmt?_of_not_isBlockStatement dropped]

theorem blockStmts_standFor (source : Text) (siblings : List Node) :
    List.Forall₂ StandsFor (siblings.filter isBlockStatement)
      (blockStmts source .empty siblings) := by
  rw [blockStmts_eq_flatMap_places]
  exact (onePer_blockStmts source).forall₂ siblings

theorem hasEntry_toNamespace (source : Text) {node : Node} (isNamespace : node.kind = .nspace) :
    node.HasEntry (node.toNamespace source) := by
  rw [toNamespace]
  split
  next body isBody => exact .block isNamespace isBody (blockStmts_standFor source body.children)
  next noBody => exact .header isNamespace noBody

theorem HasEntry.span? {node : Node} {stmt : Stmt} (isNamespace : node.kind = .nspace)
    (entry : node.HasEntry stmt) : stmt.span? = some node.span := by
  cases entry with
  | plain other => exact absurd isNamespace other
  | header => rfl
  | block => rfl

theorem onePer_rootStmts (source : Text) :
    OnePer isStatement
      (fun place stmt => place.node.HasEntry stmt ∧ place.Spans source countsAtRoot stmt)
      (Place.rootStmts source) := by
  constructor
  · intro place kept
    rw [Place.rootStmts]
    split
    next isNamespace =>
      have entry := hasEntry_toNamespace source isNamespace
      exact ⟨_, rfl, entry, .inl (entry.span? isNamespace)⟩
    next other =>
      have kept' : place.node.isBlockStatement := by
        simpa [isStatement, isBlockStatement, other] using kept
      obtain ⟨stmt, made, stands⟩ := exists_toStmt?_of_isBlockStatement source
        (trail source countsAtRoot place.before) kept'
      exact ⟨stmt, by rw [made]; rfl, .plain other stands, .of_toStmt? made⟩
  · intro place dropped
    obtain ⟨other, dropped'⟩ := Bool.or_eq_false_iff.1 dropped
    rw [Place.rootStmts, if_neg (by simpa using other), toStmt?_of_not_isBlockStatement dropped']
    rfl

end Node

/-! ## Namespaces that end in a semicolon -/

namespace Stmt

theorem entries_of_not_isNamespace {stmt : Stmt} (plain : stmt.isNamespace = false) :
    stmt.entries = [stmt] := by
  cases stmt with
  | nspace => cases plain
  | uses | classLike | enclosing | inclusion | declare | other => rfl

theorem gather_eq (stmts : List Stmt) :
    gather stmts = (gatherFrom stmts).1 ++ (gatherFrom stmts).2 :=
  rfl

theorem gather_cons_of_not_isNamespace {stmt : Stmt} (plain : stmt.isNamespace = false)
    (rest : List Stmt) : gather (stmt :: rest) = stmt :: gather rest := by
  rw [gather_eq, gatherFrom_cons_of_not_isNamespace plain, gather_eq, List.cons_append]

theorem gather_cons_nspace (head : NamespaceHead) (body rest : List Stmt) :
    gather (.nspace head body :: rest) =
      if head.braced then .nspace head body :: gather rest
      else .nspace head (body ++ (gatherFrom rest).1) :: (gatherFrom rest).2 := by
  rw [gather_eq, gatherFrom_cons_nspace]
  split <;> rfl

theorem isNamespace_gatherFrom_fst (stmts : List Stmt) :
    ∀ stmt ∈ (gatherFrom stmts).1, stmt.isNamespace = false := by
  induction stmts with
  | nil => simp [gatherFrom]
  | cons stmt rest ih =>
      rcases stmt.nspace_or_plain with ⟨head, body, rfl⟩ | plain
      · rw [gatherFrom_cons_nspace]
        split <;> simp
      · rw [gatherFrom_cons_of_not_isNamespace plain]
        exact List.forall_mem_cons.2 ⟨plain, ih⟩

theorem isNamespace_head_gatherFrom_snd (stmts : List Stmt) :
    ∀ stmt ∈ (gatherFrom stmts).2.head?, stmt.isNamespace := by
  induction stmts with
  | nil => simp [gatherFrom]
  | cons stmt rest ih =>
      rcases stmt.nspace_or_plain with ⟨head, body, rfl⟩ | plain
      · rw [gatherFrom_cons_nspace]
        split <;> simp [isNamespace]
      · rw [gatherFrom_cons_of_not_isNamespace plain]
        exact ih

/-- What follows the statements in front of a namespace starts with the namespace. -/
theorem takeWhile_gatherFrom (stmts : List Stmt) :
    ((gatherFrom stmts).1 ++ (gatherFrom stmts).2.flatMap entries).takeWhile (!·.isNamespace) =
      (gatherFrom stmts).1 := by
  have plain : ∀ stmt ∈ (gatherFrom stmts).1, (!stmt.isNamespace) = true := fun stmt member => by
    simp [isNamespace_gatherFrom_fst stmts stmt member]
  have opens := isNamespace_head_gatherFrom_snd stmts
  rw [List.takeWhile_append_of_pos plain]
  cases gathered : (gatherFrom stmts).2 with
  | nil => simp
  | cons stmt rest =>
      rcases stmt.nspace_or_plain with ⟨head, body, rfl⟩ | plain
      · cases braced : head.braced <;> simp [entries, braced, isNamespace]
      · rw [opens stmt (by rw [gathered]; rfl)] at plain
        cases plain

theorem flatMap_entries_gatherFrom_fst (stmts : List Stmt) :
    (gatherFrom stmts).1.flatMap entries = (gatherFrom stmts).1 := by
  have plain := fun stmt member =>
    entries_of_not_isNamespace (isNamespace_gatherFrom_fst stmts stmt member)
  rw [List.flatMap_congr plain, List.flatMap_singleton']

section Bare

-- No namespace that ends in a semicolon owns a statement yet.
variable {stmts : List Stmt} (bare : ∀ stmt ∈ stmts, stmt.entries = [stmt])

theorem body_eq_nil_of_entries {head : NamespaceHead} {body : List Stmt}
    (unbraced : head.braced = false)
    (single : (nspace head body).entries = [.nspace head body]) : body = [] := by
  rw [entries, if_neg (by simp [unbraced])] at single
  exact (List.cons.inj single).2

include bare

/-- As entries, gathered statements are those they are gathered from. -/
theorem flatMap_entries_gather : (gather stmts).flatMap entries = stmts := by
  induction stmts with
  | nil => rfl
  | cons stmt rest ih =>
      obtain ⟨first, later⟩ := List.forall_mem_cons.1 bare
      have rest' := ih later
      rcases stmt.nspace_or_plain with ⟨head, body, rfl⟩ | plain
      · rw [gather_cons_nspace]
        split
        next => rw [List.flatMap_cons, rest', first, List.singleton_append]
        next unbraced =>
          obtain rfl := body_eq_nil_of_entries (Bool.eq_false_iff.2 unbraced) first
          rw [gather_eq, List.flatMap_append, flatMap_entries_gatherFrom_fst] at rest'
          rw [List.flatMap_cons, entries, if_neg unbraced, List.nil_append, List.cons_append, rest']
      · rw [gather_cons_of_not_isNamespace plain, List.flatMap_cons, rest', first,
          List.singleton_append]

/-- A namespace that ends in a semicolon owns the entries up to the next namespace. -/
theorem owned_of_suffix_gather {head : NamespaceHead} {body after : List Stmt}
    (suffix : .nspace head body :: after <:+ gather stmts) (unbraced : head.braced = false) :
    (body ++ after.flatMap entries).takeWhile (!·.isNamespace) = body := by
  -- A suffix of what is gathered starts with the first statement or comes from those behind it.
  induction stmts with
  | nil => cases List.suffix_nil.1 suffix
  | cons stmt rest ih =>
      obtain ⟨first, others⟩ := List.forall_mem_cons.1 bare
      rcases stmt.nspace_or_plain with ⟨head', body', rfl⟩ | plain
      · rw [gather_cons_nspace] at suffix
        split at suffix
        next braced =>
          rcases List.suffix_cons_iff.1 suffix with here | later
          · obtain ⟨⟨rfl, -⟩, -⟩ := by simpa using here
            rw [braced] at unbraced
            cases unbraced
          · exact ih others later
        next =>
          rcases List.suffix_cons_iff.1 suffix with here | later
          · obtain ⟨⟨rfl, rfl⟩, rfl⟩ := by simpa using here
            rw [body_eq_nil_of_entries unbraced first, List.nil_append]
            exact takeWhile_gatherFrom rest
          · exact ih others (later.trans (List.suffix_append _ _))
      · rw [gather_cons_of_not_isNamespace plain] at suffix
        rcases List.suffix_cons_iff.1 suffix with here | later
        · obtain ⟨rfl, -⟩ := List.cons.inj here
          cases plain
        · exact ih others later

end Bare

/-- A namespace with a block is gathered as it is. -/
theorem mem_of_mem_gather {stmts : List Stmt} (bare : ∀ stmt ∈ stmts, stmt.entries = [stmt])
    {head : NamespaceHead} {body : List Stmt} (member : .nspace head body ∈ gather stmts)
    (braced : head.braced) : .nspace head body ∈ stmts := by
  rw [← flatMap_entries_gather bare]
  exact List.mem_flatMap.2 ⟨_, member, by simp [entries, braced]⟩

/-- What a namespace that ends in a semicolon owns comes from the statements in their order. -/
theorem sublist_of_mem_gather {stmts : List Stmt} (bare : ∀ stmt ∈ stmts, stmt.entries = [stmt])
    {head : NamespaceHead} {body : List Stmt} (member : .nspace head body ∈ gather stmts)
    (unbraced : head.braced = false) : body.Sublist stmts := by
  have owned : body.Sublist (nspace head body).entries := by simp [entries, unbraced]
  rw [← flatMap_entries_gather bare]
  rw [List.flatMap_def]
  exact owned.trans (List.sublist_flatten_of_mem (List.mem_map_of_mem member))

theorem InOrder.of_sublist {stmts others : List Stmt} (inOrder : InOrder others)
    (sublist : (stmts.map span?).Sublist (others.map span?)) : InOrder stmts := by
  constructor
  · intro stmt member
    obtain ⟨other, isOther, same⟩ := List.mem_map.1 (sublist.subset (List.mem_map_of_mem member))
    rw [← same]
    exact inOrder.spanned other isOther
  · have ordered : (others.map span?).Pairwise fun a b =>
        ∀ left ∈ a, ∀ right ∈ b, left.Before right :=
      List.pairwise_map.2 inOrder.inOrder
    exact List.pairwise_map.1 (ordered.sublist sublist)

end Stmt

/-! ## Trees -/

namespace Node

theorem HasEntry.entries_eq {node : Node} {stmt : Stmt} (entry : node.HasEntry stmt) :
    stmt.entries = [stmt] := by
  cases entry with
  | plain _ stands => exact Stmt.entries_of_not_isNamespace stands.plain
  | header => rfl
  | block => rfl

theorem entries_of_mem_rootStmts {source : Text} {siblings : List Node} :
    ∀ stmt ∈ rootStmts source .empty siblings, stmt.entries = [stmt] := by
  intro stmt member
  rw [rootStmts_eq_flatMap_places] at member
  obtain ⟨place, -, inPlace⟩ := List.mem_flatMap.1 member
  exact ((onePer_rootStmts source).of_mem inPlace).2.1.entries_eq

section Tree

variable {source : Text} {root : Node} (tree : Nested root)

include tree

theorem inOrder_blockStmts {body : Node} (inTree : body ∈ root.nodes) :
    Stmt.InOrder (blockStmts source .empty body.children) := by
  rw [blockStmts_eq_flatMap_places]
  refine (onePer_blockStmts source).inOrder (fun node kept => ?_) (tree.ordered body inTree)
  simp_all [isBlockStatement, countsInBlock]

theorem inOrder_rootStmts : Stmt.InOrder (rootStmts source .empty root.children) := by
  rw [rootStmts_eq_flatMap_places]
  refine (onePer_rootStmts source).inOrder (fun node kept => ?_)
    (tree.ordered root root.self_mem_nodes)
  refine ⟨by simp [countsAtRoot, kept], fun comment => ?_⟩
  simp [isStatement, comment] at kept

/-- The statements in the block of a namespace follow each other. -/
theorem inOrder_of_mem_rootStmts {head : NamespaceHead} {body : List Stmt}
    (member : .nspace head body ∈ rootStmts source .empty root.children) : Stmt.InOrder body := by
  rw [rootStmts_eq_flatMap_places] at member
  obtain ⟨place, isPlace, inPlace⟩ := List.mem_flatMap.1 member
  have inTree := mem_nodes_of_mem_children root.self_mem_nodes (node_mem_of_mem_places isPlace)
  rw [Place.rootStmts] at inPlace
  split at inPlace
  next =>
    have made := List.mem_singleton.1 inPlace
    rw [toNamespace] at made
    split at made
    next block isBody =>
      obtain ⟨-, rfl⟩ := Stmt.nspace.inj made
      exact inOrder_blockStmts tree
        (mem_nodes_of_mem_children inTree (List.mem_of_find?_eq_some isBody))
    next =>
      obtain ⟨-, rfl⟩ := Stmt.nspace.inj made
      exact ⟨by simp, .nil⟩
  next =>
    obtain ⟨-, ⟨kind, -, isClass⟩ | ⟨-, plain, -⟩⟩ := toStmt?_cases (Option.mem_toList.1 inPlace)
    · cases isClass
    · cases plain

theorem methodsInOrder_of_mem_nestedClasses {node : Node} (inTree : node ∈ root.nodes) :
    ∀ decl ∈ node.nestedClasses source, decl.MethodsInOrder := by
  intro decl member
  obtain ⟨parent, inside, place, isPlace, kind, -, rfl⟩ := exists_place_of_mem_nestedClasses member
  exact methodsInOrder_toClass tree (mem_nodes_of_mem_children (mem_nodes_trans inside inTree)
    (node_mem_of_mem_places isPlace)) kind _

theorem classesInOrder_of_toStmt? {node : Node} (inTree : node ∈ root.nodes)
    {pending : PendingDoc} {stmt : Stmt} (made : node.toStmt? source pending = some stmt) :
    stmt.ClassesInOrder := by
  obtain ⟨-, ⟨kind, -, rfl⟩ | ⟨span, -, classes, -⟩⟩ := toStmt?_cases made
  · refine ⟨?_, List.pairwise_singleton _ _, ?_⟩
    · rintro span ⟨⟩ decl member
      obtain rfl := List.mem_singleton.1 member
      exact ⟨Nat.le_refl _, Nat.le_refl _⟩
    · intro decl member
      obtain rfl := List.mem_singleton.1 member
      exact methodsInOrder_toClass tree inTree kind _
  · rcases classes with none | inner
    · exact ⟨by simp [none], by simp [none], by simp [none]⟩
    · constructor
      · intro span' isSpan
        obtain rfl := Option.some.inj (span.symm.trans isSpan)
        rw [inner]
        exact within_of_mem_nestedClasses tree inTree
      · rw [inner]
        exact pairwise_span_nestedClasses tree inTree
      · rw [inner]
        exact methodsInOrder_of_mem_nestedClasses tree inTree

end Tree

end Node

namespace SourceUnit

/-- The statements of a unit are those of the nodes of a tree, in their order and nested as they
are. -/
structure Mirrors (root : Node) (unit : SourceUnit) : Prop where
  /-- Every statement node of the root has one entry, and there is no other. -/
  entries : List.Forall₂ Node.HasEntry (root.children.filter Node.isStatement)
    (unit.stmts.flatMap Stmt.entries)
  /-- A namespace that ends in a semicolon owns the entries up to the next namespace. -/
  owned : ∀ head body after, .nspace head body :: after <:+ unit.stmts → head.braced = false →
    (body ++ after.flatMap Stmt.entries).takeWhile (!·.isNamespace) = body
  inOrder : Stmt.InOrder unit.stmts
  bodies : ∀ head body, .nspace head body ∈ unit.stmts → Stmt.InOrder body
  classes : ∀ stmt ∈ unit.stmts.flatMap Stmt.leaves, stmt.ClassesInOrder
  /-- Classes inside a statement are apart with their doc comments too, if comments are leaves. -/
  fullSpans : (∀ node ∈ root.nodes, node.kind = .comment → node.children = []) →
    ∀ stmt ∈ unit.stmts.flatMap Stmt.leaves,
      stmt.classes.Pairwise fun a b => a.decl.fullSpan.Before b.decl.fullSpan

variable {source : Text} {root : Node}

theorem bodies_ofTree (tree : root.Nested) {head : NamespaceHead} {body : List Stmt}
    (member : .nspace head body ∈ (ofTree source root).stmts) : Stmt.InOrder body := by
  cases braced : head.braced with
  | true =>
      exact Node.inOrder_of_mem_rootStmts tree
        (Stmt.mem_of_mem_gather Node.entries_of_mem_rootStmts member braced)
  | false =>
      have owned := Stmt.sublist_of_mem_gather Node.entries_of_mem_rootStmts member braced
      exact (Node.inOrder_rootStmts tree).of_sublist (owned.map _)

theorem exists_toStmt?_of_mem_leaves {stmt : Stmt}
    (member : stmt ∈ (ofTree source root).stmts.flatMap Stmt.leaves) :
    ∃ node ∈ root.nodes, ∃ pending, node.toStmt? source pending = some stmt := by
  obtain ⟨counts, siblings, holds, place, isPlace, made⟩ := Node.exists_place_of_mem_leaves member
  exact ⟨place.node, holds.mem_nodes place.node (Node.node_mem_of_mem_places isPlace), _, made⟩

/-- In a tree whose nodes lie inside their parents and follow their siblings, reading loses, repeats
and reorders no statement. Namespaces own what stands behind or inside them, and with their doc
comments statements, classes and methods are nested and follow each other as their nodes do. -/
theorem mirrors_ofTree (source : Text) (root : Node) (tree : root.Nested) :
    (ofTree source root).Mirrors root where
  entries := by
    rw [ofTree, Stmt.flatMap_entries_gather Node.entries_of_mem_rootStmts,
      Node.rootStmts_eq_flatMap_places]
    exact (Node.onePer_rootStmts source).forall₂ root.children
  owned _ _ _ suffix unbraced :=
    Stmt.owned_of_suffix_gather Node.entries_of_mem_rootStmts suffix unbraced
  inOrder := (Node.inOrder_rootStmts tree).of_sublist (Stmt.map_span?_gather_sublist _)
  bodies _ _ member := bodies_ofTree tree member
  classes stmt member := by
    obtain ⟨node, inTree, pending, made⟩ := exists_toStmt?_of_mem_leaves member
    exact Node.classesInOrder_of_toStmt? tree inTree made
  fullSpans leaves stmt member := by
    obtain ⟨node, inTree, pending, made⟩ := exists_toStmt?_of_mem_leaves member
    obtain ⟨-, ⟨kind, -, rfl⟩ | ⟨-, -, none | inner, -⟩⟩ := Node.toStmt?_cases made
    · exact List.pairwise_singleton _ _
    · rw [none]
      exact .nil
    · rw [inner]
      exact Node.pairwise_fullSpan_nestedClasses tree leaves inTree

/-- The first of two namespaces owns a class with a method and a statement around a class. -/
theorem mirrors_ofTree_two_namespaces : ∃ (source : Text) (root : Node), root.Nested ∧
    (ofTree source root).stmts.map (·.leaves.length) = [2, 0] ∧
    (ofTree source root).classes.map (·.methods.length) = [1, 0] ∧
    (ofTree source root).Mirrors root := by
  let source := "<?php\nnamespace A;\n/** b */\n".toList ++
    "class B \x7b /** c */ function c() \x7b\x7d \x7d\n".toList ++
    "if (1) \x7b class D \x7b\x7d \x7d\nnamespace E;\n".toList
  let node (kind : NodeKind) (start stop : Nat) (children : List Node) : Node :=
    ⟨kind, ⟨start, stop⟩, true, children⟩
  let method := node .method 47 62 [node .name 56 57 []]
  let cls := node .classDecl 28 64 [node .name 34 35 [],
    node .members 36 64 [node .comment 38 46 [], method]]
  let branch := node .other 65 86 [node .block 72 86 [node .classDecl 74 84 [node .name 80 81 []]]]
  let root := node .other 0 100 [node .openTag 0 5 [], node .nspace 6 18 [],
    node .comment 19 27 [], cls, branch, node .nspace 87 99 []]
  have tree : root.Nested := by decide +kernel
  refine ⟨source, root, tree, ?_, ?_, mirrors_ofTree source root tree⟩
  all_goals decide +kernel

end SourceUnit

end TagLift
