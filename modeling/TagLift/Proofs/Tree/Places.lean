import TagLift.Proofs.Tree.Lined
import Mathlib.Data.List.Induction

/-!
# Siblings in front of a node

The walks over siblings differ in what they make of a node and in which siblings they let count for
the doc comment that waits. What each of them gives is said place by place: a place is a node with
the siblings in front of it. What waits at a place is the last doc comment in front of it, if only
comments stand between among the siblings that count.
-/

namespace TagLift

namespace Node

/-- A node among its siblings, with those in front of it. -/
structure Place where
  before : List Node
  node : Node

/-- The places of siblings, given those in front of the first. -/
def placesFrom (before : List Node) : List Node → List Place
  | [] => []
  | node :: rest => ⟨before, node⟩ :: placesFrom (before ++ [node]) rest

/-- The places of siblings. -/
def places (siblings : List Node) : List Place :=
  placesFrom [] siblings

theorem mem_placesFrom {before siblings : List Node} {place : Place} :
    place ∈ placesFrom before siblings ↔
      ∃ front after, siblings = front ++ place.node :: after ∧ place.before = before ++ front := by
  induction siblings generalizing before with
  | nil => simp [placesFrom]
  | cons node rest ih =>
      rw [placesFrom, List.mem_cons, ih]
      constructor
      · rintro (rfl | ⟨front, after, rfl, equal⟩)
        · exact ⟨[], rest, rfl, (List.append_nil _).symm⟩
        · exact ⟨node :: front, after, rfl, by simp [equal]⟩
      · rintro ⟨front, after, split, equal⟩
        cases front with
        | nil =>
            obtain ⟨rfl, -⟩ := List.cons.inj split
            rw [List.append_nil] at equal
            exact .inl (by rw [← equal])
        | cons first front =>
            obtain ⟨rfl, rfl⟩ := List.cons.inj split
            exact .inr ⟨front, after, rfl, by simp [equal]⟩

theorem mem_places {siblings : List Node} {place : Place} :
    place ∈ places siblings ↔ ∃ after, siblings = place.before ++ place.node :: after := by
  rw [places, mem_placesFrom]
  constructor
  · rintro ⟨front, after, split, equal⟩
    exact ⟨after, by rw [split, equal, List.nil_append]⟩
  · rintro ⟨after, split⟩
    exact ⟨place.before, after, split, rfl⟩

theorem node_mem_of_mem_places {siblings : List Node} {place : Place}
    (member : place ∈ places siblings) : place.node ∈ siblings := by
  obtain ⟨after, rfl⟩ := mem_places.1 member
  simp

/-- A later place has an earlier one's node among those in front of it. -/
theorem pairwise_places (siblings : List Node) :
    (places siblings).Pairwise fun first second =>
      ∃ between, second.before = first.before ++ first.node :: between := by
  suffices general : ∀ before, (placesFrom before siblings).Pairwise fun first second =>
      ∃ between, second.before = first.before ++ first.node :: between from general []
  induction siblings with
  | nil => exact fun _ => .nil
  | cons node rest ih =>
      intro before
      refine List.pairwise_cons.2 ⟨fun place later => ?_, ih _⟩
      obtain ⟨front, after, -, equal⟩ := mem_placesFrom.1 later
      exact ⟨front, by simp [equal]⟩

/-- What is given place by place is related throughout if it is at each place and between two. -/
theorem pairwise_flatMap_places {α : Type} {rel : α → α → Prop} {item : Place → List α}
    {siblings : List Node} (each : ∀ place ∈ places siblings, (item place).Pairwise rel)
    (apart : ∀ first ∈ places siblings, ∀ second ∈ places siblings, ∀ between,
      second.before = first.before ++ first.node :: between →
      ∀ a ∈ item first, ∀ b ∈ item second, rel a b) :
    ((places siblings).flatMap item).Pairwise rel := by
  refine List.pairwise_flatMap.2 ⟨each, (pairwise_places siblings).imp_of_mem ?_⟩
  rintro first second isFirst isSecond ⟨between, behind⟩
  exact apart first isFirst second isSecond between behind

/-! ## Walks -/

/-- What waits behind siblings, of which only some count. -/
def trail (source : Text) (counts : Node → Bool) (before : List Node) : PendingDoc :=
  (before.filter counts).foldl (PendingDoc.observe source) .empty

theorem trail_concat (source : Text) (counts : Node → Bool) (before : List Node) (node : Node) :
    trail source counts (before ++ [node]) =
      if counts node then (trail source counts before).observe source node
      else trail source counts before := by
  cases counted : counts node <;> simp [trail, List.filter_append, counted]

/-- The doc comment for the node of a place. -/
def Place.doc (source : Text) (counts : Node → Bool) (place : Place) : Option DocComment :=
  (trail source counts place.before).docFor source place.node.span.start

/-- A walk over siblings that takes along what waits gives for each place what it gives for the node
and what waits there. -/
theorem walk_eq_flatMap_places {α : Type} {source : Text} {walk : PendingDoc → List Node → List α}
    (counts : Node → Bool) (item : PendingDoc → Node → List α)
    (nil : ∀ pending, walk pending [] = [])
    (cons : ∀ pending node rest, walk pending (node :: rest) =
      item pending node ++
        walk (if counts node then pending.observe source node else pending) rest)
    (siblings : List Node) :
    walk .empty siblings =
      (places siblings).flatMap fun place =>
        item (trail source counts place.before) place.node := by
  suffices general : ∀ before, walk (trail source counts before) siblings =
      (placesFrom before siblings).flatMap fun place =>
        item (trail source counts place.before) place.node from general []
  induction siblings with
  | nil => exact fun _ => nil _
  | cons node rest ih =>
      intro before
      rw [cons, ← trail_concat, ih, placesFrom, List.flatMap_cons]

/-- All siblings count inside of statements and among the members of a class. -/
def countsInside (_ : Node) : Bool :=
  true

/-- In the block of a namespace punctuation and the opening tag do not count. -/
def countsInBlock (node : Node) : Bool :=
  node.kind == .comment || (node.named && node.kind != .openTag)

/-- At the root punctuation and the opening tag do not count. -/
def countsAtRoot (node : Node) : Bool :=
  node.kind == .comment || node.isStatement

/-- The method at a place among the members of a class. -/
def Place.methods (source : Text) (place : Place) : List Declaration :=
  if place.node.kind = .method then
    [place.node.toDeclaration source (place.doc source countsInside)]
  else []

/-- The classes at a place inside of a statement. -/
def Place.classes (source : Text) (place : Place) : List ClassDecl :=
  match place.node.classKind? with
  | some kind => [place.node.toClass source kind (place.doc source countsInside)]
  | none => if place.node.kind = .anonymousClass then [] else place.node.nestedClasses source

/-- The statement at a place in the block of a namespace. -/
def Place.blockStmts (source : Text) (place : Place) : List Stmt :=
  (place.node.toStmt? source (trail source countsInBlock place.before)).toList

/-- The statement at a place at the root. -/
def Place.rootStmts (source : Text) (place : Place) : List Stmt :=
  if place.node.kind = .nspace then [place.node.toNamespace source]
  else (place.node.toStmt? source (trail source countsAtRoot place.before)).toList

theorem methodsOf_eq_flatMap_places (source : Text) (siblings : List Node) :
    methodsOf source .empty siblings = (places siblings).flatMap (Place.methods source) := by
  refine walk_eq_flatMap_places countsInside (fun pending node =>
    if node.kind = .method then
      [node.toDeclaration source (pending.docFor source node.span.start)]
    else []) (fun _ => rfl) (fun pending node rest => ?_) siblings
  rw [methodsOf]
  split <;> rfl

/-- The methods of a class are those of one of its children, if it has any. -/
theorem methods_toClass_cases (source : Text) (kind : ClassKind) (doc : Option DocComment)
    (node : Node) :
    (node.toClass source kind doc).methods = [] ∨ ∃ body ∈ node.children,
      (node.toClass source kind doc).methods =
        (places body.children).flatMap (Place.methods source) := by
  simp only [toClass]
  cases found : (node.child? .members).or (node.child? .enumMembers) with
  | none => exact .inl rfl
  | some body =>
      refine .inr ⟨body, ?_, methodsOf_eq_flatMap_places source body.children⟩
      rcases Option.or_eq_some_iff.1 found with first | ⟨-, second⟩
      · exact List.mem_of_find?_eq_some first
      · exact List.mem_of_find?_eq_some second

theorem nestedClasses_eq_flatMap_places (source : Text) (node : Node) :
    node.nestedClasses source = (places node.children).flatMap (Place.classes source) := by
  rw [nestedClasses_eq]
  refine walk_eq_flatMap_places countsInside (fun pending node =>
    match node.classKind? with
    | some kind => [node.toClass source kind (pending.docFor source node.span.start)]
    | none => if node.kind = .anonymousClass then [] else node.nestedClasses source)
    (fun _ => rfl) (fun pending node rest => ?_) node.children
  rw [nestedClassesOf]
  cases node.classKind? with
  | some kind => rfl
  | none =>
      by_cases anonymous : node.kind = .anonymousClass
      · rw [if_pos anonymous, if_pos anonymous]
        rfl
      · rw [if_neg anonymous, if_neg anonymous]
        rfl

theorem blockStmts_eq_flatMap_places (source : Text) (siblings : List Node) :
    blockStmts source .empty siblings = (places siblings).flatMap (Place.blockStmts source) := by
  refine walk_eq_flatMap_places countsInBlock
    (fun pending node => (node.toStmt? source pending).toList)
    (fun _ => rfl) (fun pending node rest => ?_) siblings
  simp [blockStmts, pendingAfter, countsInBlock]

theorem rootStmts_eq_flatMap_places (source : Text) (siblings : List Node) :
    rootStmts source .empty siblings = (places siblings).flatMap (Place.rootStmts source) := by
  refine walk_eq_flatMap_places countsAtRoot (fun pending node =>
    if node.kind = .nspace then [node.toNamespace source]
    else (node.toStmt? source pending).toList)
    (fun _ => rfl) (fun pending node rest => ?_) siblings
  rw [rootStmts]
  split
  next nspace => simp [countsAtRoot, isStatement, nspace]
  next other =>
    have counted :
        countsAtRoot node ↔ node.kind = .comment ∨ node.named ∧ node.kind ≠ .openTag := by
      by_cases comment : node.kind = .comment <;>
        simp [countsAtRoot, isStatement, other, comment]
    simp only [pendingAfter, counted]

/-! ## The doc comment in front -/

/-- The last of the comments right behind each other at the end of siblings that is a doc comment.
-/
def docBefore (source : Text) (before : List Node) : Option DocComment :=
  ((before.reverse.takeWhile (·.kind == .comment)).find? (isDocComment <| ·.text source)).map
    fun comment => ⟨some comment.span, comment.text source⟩

theorem docBefore_concat (source : Text) (before : List Node) (node : Node) :
    docBefore source (before ++ [node]) =
      if node.kind = .comment then
        if isDocComment (node.text source) then some ⟨some node.span, node.text source⟩
        else docBefore source before
      else none := by
  rw [docBefore, List.reverse_append, List.reverse_singleton, List.singleton_append,
    List.takeWhile_cons]
  split
  next comment =>
    rw [List.find?_cons]
    split
    next isDoc => simp_all
    next plain => simp_all [docBefore]
  next other => simp_all

/-- What waits is the doc comment in front among the siblings that count. -/
theorem doc_trail (source : Text) (counts : Node → Bool) (before : List Node) :
    (trail source counts before).doc = docBefore source (before.filter counts) := by
  rw [trail]
  generalize before.filter counts = counted
  induction counted using List.reverseRecOn with
  | nil => rfl
  | append_singleton counted node ih =>
      rw [List.foldl_append, List.foldl_cons, List.foldl_nil, docBefore_concat, PendingDoc.observe]
      split
      · simp only [ih]
      · rfl

theorem docBefore_append_of_plain {source : Text} {middle : List Node}
    (plain : ∀ node ∈ middle, node.kind = .comment ∧ isDocComment (node.text source) = false)
    (front : List Node) : docBefore source (front ++ middle) = docBefore source front := by
  induction middle using List.reverseRecOn with
  | nil => rw [List.append_nil]
  | append_singleton middle last ih =>
      obtain ⟨comment, notDoc⟩ := plain last (by simp)
      rw [← List.append_assoc, docBefore_concat, if_pos comment, if_neg (by simp [notDoc])]
      exact ih fun node inner => plain node (by simp [inner])

/-- A sibling that is no comment detaches every doc comment in front of it. -/
theorem docBefore_append_eq_none {source : Text} {middle : List Node}
    (plain : ∀ node ∈ middle, node.kind = .comment → isDocComment (node.text source) = false)
    (between : ∃ node ∈ middle, node.kind ≠ .comment) (front : List Node) :
    docBefore source (front ++ middle) = none := by
  induction middle using List.reverseRecOn with
  | nil => simp at between
  | append_singleton middle last ih =>
      rw [← List.append_assoc, docBefore_concat]
      split
      next comment =>
        rw [if_neg (by simp [plain last (by simp) comment])]
        refine ih (fun node inner => plain node (by simp [inner])) ?_
        obtain ⟨node, member, other⟩ := between
        rcases List.mem_append.1 member with inner | isLast
        · exact ⟨node, inner, other⟩
        · exact absurd (List.mem_singleton.1 isLast ▸ comment) other
      next => rfl

/-- Siblings with a doc comment among them behind which all that counts is plain comments. -/
structure LastDoc (source : Text) (counts : Node → Bool) (before front : List Node) (comment : Node)
    (middle : List Node) : Prop where
  split : before = front ++ comment :: middle
  isComment : comment.kind = .comment
  isDoc : isDocComment (comment.text source)
  plain : ∀ node ∈ middle, counts node →
    node.kind = .comment ∧ isDocComment (node.text source) = false

/-- A doc comment that waits is the last one among the siblings that count. -/
theorem exists_lastDoc {source : Text} {counts : Node → Bool} {before : List Node}
    {doc : DocComment} (waits : docBefore source (before.filter counts) = some doc) :
    ∃ front comment middle, LastDoc source counts before front comment middle ∧
      doc = ⟨some comment.span, comment.text source⟩ := by
  induction before using List.reverseRecOn with
  | nil => cases waits
  | append_singleton before last ih =>
      -- Whatever the last sibling is, it goes behind the doc comment unless it is one itself.
      have behind (waits : docBefore source (before.filter counts) = some doc)
          (plain : counts last → last.kind = .comment ∧ isDocComment (last.text source) = false) :
          ∃ front comment middle, LastDoc source counts (before ++ [last]) front comment middle ∧
            doc = ⟨some comment.span, comment.text source⟩ := by
        obtain ⟨front, comment, middle, found, rfl⟩ := ih waits
        refine ⟨front, comment, middle ++ [last],
          ⟨by simp [found.split], found.isComment, found.isDoc, fun node member => ?_⟩, rfl⟩
        rcases List.mem_append.1 member with inner | isLast
        · exact found.plain node inner
        · exact List.mem_singleton.1 isLast ▸ plain
      rw [List.filter_append] at waits
      cases counted : counts last with
      | false => exact behind (by simpa [counted] using waits) (by simp [counted])
      | true =>
          rw [List.filter_cons_of_pos counted, List.filter_nil, docBefore_concat] at waits
          split at waits
          next comment =>
            split at waits
            next isDoc =>
              obtain rfl := Option.some.inj waits
              exact ⟨before, last, [], ⟨rfl, comment, isDoc, by simp⟩, rfl⟩
            next notDoc => exact behind waits fun _ => ⟨comment, Bool.eq_false_iff.2 notDoc⟩
          next => cases waits

namespace LastDoc

variable {source : Text} {counts : Node → Bool} {before front middle : List Node} {comment : Node}
  (found : LastDoc source counts before front comment middle)

include found

/-- If all siblings behind it count, a doc comment is the one in front. -/
theorem docBefore_eq (counted : ∀ node ∈ middle, counts node) :
    docBefore source before = some ⟨some comment.span, comment.text source⟩ := by
  have plain := fun node inner => found.plain node inner (counted node inner)
  rw [found.split, List.append_cons, docBefore_append_of_plain plain, docBefore_concat,
    if_pos found.isComment, if_pos found.isDoc]

theorem docBefore_filter (counted : counts comment) :
    docBefore source (before.filter counts) = some ⟨some comment.span, comment.text source⟩ := by
  have filtered : LastDoc source counts (before.filter counts) (front.filter counts) comment
      (middle.filter counts) :=
    { found with
      split := by rw [found.split, List.filter_append, List.filter_cons_of_pos counted]
      plain := fun node inner => found.plain node (List.mem_filter.1 inner).1 }
  exact filtered.docBefore_eq fun node inner => (List.mem_filter.1 inner).2

end LastDoc

/-! ## The places of a tree -/

/-- Siblings that become statements, with those that count: the children of the root, and those of
the block of a namespace. -/
inductive HoldsStmts (root : Node) : (Node → Bool) → List Node → Prop where
  | root : HoldsStmts root countsAtRoot root.children
  | block {node body : Node} (member : node ∈ root.children) (isNamespace : node.kind = .nspace)
      (isBody : node.child? .block = some body) : HoldsStmts root countsInBlock body.children

theorem HoldsStmts.counts_of_comment {root : Node} {counts : Node → Bool} {siblings : List Node}
    (holds : HoldsStmts root counts siblings) : ∀ node, node.kind = .comment → counts node := by
  intro node comment
  cases holds with
  | root => simp [countsAtRoot, comment]
  | block => simp [countsInBlock, comment]

theorem HoldsStmts.mem_nodes {root : Node} {counts : Node → Bool} {siblings : List Node}
    (holds : HoldsStmts root counts siblings) : ∀ node ∈ siblings, node ∈ root.nodes := by
  intro node member
  cases holds with
  | root => exact mem_nodes_of_mem_children root.self_mem_nodes member
  | block isChild _ isBody =>
      have inTree := mem_nodes_of_mem_children root.self_mem_nodes isChild
      have inTree' := mem_nodes_of_mem_children inTree (List.mem_of_find?_eq_some isBody)
      exact mem_nodes_of_mem_children inTree' member

/-- Every statement of a tree is made of the node at a place. -/
theorem exists_place_of_mem_leaves {source : Text} {root : Node} {stmt : Stmt}
    (member : stmt ∈ (SourceUnit.ofTree source root).stmts.flatMap Stmt.leaves) :
    ∃ counts siblings, HoldsStmts root counts siblings ∧ ∃ place ∈ places siblings,
      place.node.toStmt? source (trail source counts place.before) = some stmt := by
  simp only [SourceUnit.ofTree, Stmt.flatMap_leaves_gather, rootStmts_eq_flatMap_places,
    List.mem_flatMap] at member
  obtain ⟨top, ⟨place, atRoot, isTop⟩, isLeaf⟩ := member
  rw [Place.rootStmts] at isTop
  split at isTop
  next isNamespace =>
    obtain rfl := List.mem_singleton.1 isTop
    rw [toNamespace] at isLeaf
    split at isLeaf
    next body isBody =>
      simp only [Stmt.leaves, blockStmts_eq_flatMap_places, List.mem_flatMap] at isLeaf
      obtain ⟨inner, inBlock, made⟩ := isLeaf
      exact ⟨_, _, .block (node_mem_of_mem_places atRoot) isNamespace isBody, inner, inBlock,
        by simpa [Place.blockStmts] using made⟩
    next => cases isLeaf
  next =>
    have made := Option.mem_toList.1 isTop
    obtain ⟨-, ⟨kind, -, rfl⟩ | ⟨-, plain, -⟩⟩ := toStmt?_cases made
    · obtain rfl := List.mem_singleton.1 isLeaf
      exact ⟨_, _, .root, place, atRoot, made⟩
    · rw [Stmt.leaves_of_not_isNamespace plain] at isLeaf
      obtain rfl := List.mem_singleton.1 isLeaf
      exact ⟨_, _, .root, place, atRoot, made⟩

/-- Every class inside a node is made of the node at a place. -/
theorem exists_place_of_mem_nestedClasses {source : Text} {node : Node} {decl : ClassDecl}
    (member : decl ∈ node.nestedClasses source) :
    ∃ parent ∈ node.nodes, ∃ place ∈ places parent.children, ∃ kind,
      place.node.classKind? = some kind ∧
      decl = place.node.toClass source kind (place.doc source countsInside) := by
  induction node using induction_on with
  | step node ih =>
      rw [nestedClasses_eq_flatMap_places, List.mem_flatMap] at member
      obtain ⟨place, isPlace, inPlace⟩ := member
      rw [Place.classes] at inPlace
      split at inPlace
      next kind isClass =>
        exact ⟨node, node.self_mem_nodes, place, isPlace, kind, isClass,
          List.mem_singleton.1 inPlace⟩
      next =>
        split at inPlace
        · cases inPlace
        · have isChild := node_mem_of_mem_places isPlace
          obtain ⟨parent, inside, found⟩ := ih place.node isChild inPlace
          exact ⟨parent, mem_nodes.2 (.inr ⟨place.node, isChild, inside⟩), found⟩

end Node

theorem SourceUnit.classes_eq_flatMap_leaves (unit : SourceUnit) :
    unit.classes = (unit.stmts.flatMap Stmt.leaves).flatMap Stmt.classes := by
  rw [SourceUnit.classes, List.flatMap_assoc]
  refine List.flatMap_congr fun stmt _ => ?_
  cases stmt with
  | nspace | uses | classLike | enclosing | inclusion | declare | other =>
      simp [Stmt.leaves, Stmt.topClasses]

end TagLift
