import TagLift.Proofs.Tree.Places
import Mathlib.Data.List.Chain

/-!
# Doc comments and their declarations

A class has the doc comment in front of it if only comments stand between, and so has a method.
Inside of statements and among the members of a class this holds throughout. Among statements
punctuation and the opening tag do not count, so there a doc comment reaches over them if a comment
follows, or if they are blank.
-/

namespace TagLift

namespace Node

/-- A span lies behind another, with only white space between. -/
def Clear (source : Text) (left right : Span) : Prop :=
  left.stop ≤ right.start ∧ Text.isAllBlank (Text.slice left.stop right.start source)

/-- Siblings that follow each other, with only white space between. -/
def Spaced (source : Text) (siblings : List Node) : Prop :=
  siblings.IsChain fun left right => Clear source left.span right.span

instance (source : Text) (left right : Span) : Decidable (Clear source left right) :=
  inferInstanceAs (Decidable (_ ∧ _))

instance (source : Text) (siblings : List Node) : Decidable (Spaced source siblings) :=
  inferInstanceAs (Decidable (List.IsChain _ _))

/-- A doc comment in front of a place behind which all that counts is plain comments, but some
sibling does not count, and only white space lies between the last comment and the node. -/
def Place.ReachesOver (source : Text) (counts : Node → Bool) (place : Place) (comment : Node) :
    Prop :=
  ∃ front middle, LastDoc source counts place.before front comment middle ∧
    (∃ node ∈ middle, counts node = false) ∧
    ∀ last ∈ ((comment :: middle).filter counts).getLast?, Clear source last.span place.node.span

/-- The doc comment at a place is the one in front, unless another reaches over a sibling that does
not count. -/
structure Place.HasDoc (source : Text) (counts : Node → Bool) (place : Place)
    (doc : Option DocComment) : Prop where
  inFront : doc = docBefore source place.before ↔
    ∀ comment, ¬place.ReachesOver source counts comment
  reached : ∀ comment, place.ReachesOver source counts comment →
    doc = some ⟨some comment.span, comment.text source⟩

/-! ## The doc comment at a place -/

theorem trailEnd_trail {source : Text} {counts : Node → Bool} {before : List Node} {last : Node}
    (isLast : (before.filter counts).getLast? = some last) (comment : last.kind = .comment) :
    (trail source counts before).trailEnd = last.span.stop := by
  obtain ⟨front, equal⟩ := List.getLast?_eq_some_iff.1 isLast
  rw [trail, equal, List.foldl_append, List.foldl_cons, List.foldl_nil, PendingDoc.observe,
    if_pos comment]

namespace Place

variable {source : Text} {counts : Node → Bool} {place : Place}

theorem doc_eq_none (nothing : docBefore source (place.before.filter counts) = none) :
    place.doc source counts = none := by
  rw [doc, PendingDoc.docFor, doc_trail, nothing, ite_self]

end Place

namespace LastDoc

variable {source : Text} {counts : Node → Bool} {place : Place} {front middle : List Node}
  {comment : Node} (found : LastDoc source counts place.before front comment middle)
  (comments : ∀ node, node.kind = .comment → counts node)

include found comments

/-- The last sibling that counts is a comment. -/
theorem exists_last : ∃ last ∈ ((comment :: middle).filter counts).getLast?,
    last.kind = .comment ∧ (place.before.filter counts).getLast? = some last := by
  have counted := comments comment found.isComment
  have nonempty : (comment :: middle).filter counts ≠ [] := by
    rw [List.filter_cons_of_pos counted]
    exact List.cons_ne_nil _ _
  obtain ⟨last, isLast⟩ := Option.ne_none_iff_exists'.1 (mt List.getLast?_eq_none_iff.1 nonempty)
  refine ⟨last, isLast, ?_, ?_⟩
  · obtain ⟨member, isCounted⟩ := List.mem_filter.1 (List.mem_of_getLast? isLast)
    rcases List.mem_cons.1 member with rfl | inner
    · exact found.isComment
    · exact (found.plain last inner isCounted).1
  · rw [found.split, List.filter_append, List.getLast?_append_of_ne_nil _ nonempty, isLast]

/-- The doc comment goes to the node if only white space lies between the last comment and the node.
-/
theorem doc_eq_of_clear
    (clear : ∀ last ∈ ((comment :: middle).filter counts).getLast?,
      Clear source last.span place.node.span) :
    place.doc source counts = some ⟨some comment.span, comment.text source⟩ := by
  obtain ⟨last, isLast, kind, isLast'⟩ := found.exists_last comments
  obtain ⟨order, blank⟩ := clear last isLast
  rw [Place.doc, PendingDoc.docFor, trailEnd_trail isLast' kind, if_pos ⟨order, blank⟩, doc_trail,
    found.docBefore_filter (comments comment found.isComment)]

/-- Otherwise it goes nowhere. -/
theorem doc_eq_none_of_not_clear
    (blocked : ¬∀ last ∈ ((comment :: middle).filter counts).getLast?,
      Clear source last.span place.node.span) :
    place.doc source counts = none := by
  obtain ⟨last, isLast, kind, isLast'⟩ := found.exists_last comments
  rw [Place.doc, PendingDoc.docFor, trailEnd_trail isLast' kind, if_neg]
  intro clear
  refine blocked fun other isOther => ?_
  obtain rfl := Option.some.inj (isLast.symm.trans isOther)
  exact clear

/-- A sibling that does not count is no comment. -/
theorem docBefore_eq_none (skipped : ∃ node ∈ middle, counts node = false) :
    docBefore source place.before = none := by
  obtain ⟨node, member, uncounted⟩ := skipped
  rw [found.split, List.append_cons]
  refine docBefore_append_eq_none (fun other inner kind => ?_) ⟨node, member, fun kind => ?_⟩ _
  · exact (found.plain other inner (comments other kind)).2
  · rw [comments node kind] at uncounted
    cases uncounted

end LastDoc

/-- The sibling right in front of a node among spaced siblings. -/
theorem Spaced.clear_last {source : Text} {siblings : List Node} (spaced : Spaced source siblings)
    {place : Place} (member : place ∈ places siblings) :
    ∀ last ∈ place.before.getLast?, Clear source last.span place.node.span := by
  intro last isLast
  obtain ⟨after, rfl⟩ := mem_places.1 member
  rw [Spaced, List.isChain_append] at spaced
  exact spaced.2.2 last isLast place.node rfl

theorem Place.doc_eq_docBefore {source : Text} {counts : Node → Bool} {siblings : List Node}
    {place : Place} (comments : ∀ node, node.kind = .comment → counts node)
    (spaced : Spaced source siblings) (member : place ∈ places siblings)
    (detached : ∀ comment, ¬place.ReachesOver source counts comment) :
    place.doc source counts = docBefore source place.before := by
  cases waits : docBefore source (place.before.filter counts) with
  | none =>
      rw [Place.doc_eq_none waits]
      cases inFront : docBefore source place.before with
      | none => rfl
      | some doc =>
          -- What stands in front waits, whichever other siblings count.
          rw [← List.filter_true place.before] at inFront
          obtain ⟨front, comment, middle, found, -⟩ := exists_lastDoc inFront
          have found' : LastDoc source counts place.before front comment middle :=
            { found with plain := fun node inner _ => found.plain node inner rfl }
          rw [found'.docBefore_filter (comments comment found.isComment)] at waits
          cases waits
  | some doc =>
      obtain ⟨front, comment, middle, found, rfl⟩ := exists_lastDoc waits
      by_cases skipped : ∃ node ∈ middle, counts node = false
      · rw [found.docBefore_eq_none comments skipped]
        exact found.doc_eq_none_of_not_clear comments fun clear =>
          detached comment ⟨front, middle, found, skipped, clear⟩
      · have counted : ∀ node ∈ middle, counts node := fun node inner =>
          Bool.eq_true_of_not_eq_false fun uncounted => skipped ⟨node, inner, uncounted⟩
        rw [found.docBefore_eq counted]
        refine found.doc_eq_of_clear comments fun last isLast => spaced.clear_last member last ?_
        rw [List.filter_eq_self.2 (List.forall_mem_cons.2
          ⟨comments comment found.isComment, counted⟩)] at isLast
        rw [found.split, List.getLast?_append_of_ne_nil _ (List.cons_ne_nil _ _)]
        exact isLast

theorem Place.hasDoc {source : Text} {counts : Node → Bool} {siblings : List Node} {place : Place}
    (comments : ∀ node, node.kind = .comment → counts node)
    (spaced : Spaced source siblings) (member : place ∈ places siblings) :
    place.HasDoc source counts (place.doc source counts) := by
  refine ⟨⟨?_, place.doc_eq_docBefore comments spaced member⟩, ?_⟩
  · rintro equal comment ⟨front, middle, found, skipped, clear⟩
    rw [found.doc_eq_of_clear comments clear, found.docBefore_eq_none comments skipped] at equal
    cases equal
  · rintro comment ⟨front, middle, found, -, clear⟩
    exact found.doc_eq_of_clear comments clear

theorem not_reachesOver_countsInside (source : Text) (place : Place) (comment : Node) :
    ¬place.ReachesOver source countsInside comment := by
  rintro ⟨front, middle, -, ⟨node, -, uncounted⟩, -⟩
  cases uncounted

/-- Where all siblings count, the doc comment is the one in front. -/
theorem Place.doc_countsInside {source : Text} {siblings : List Node} {place : Place}
    (spaced : Spaced source siblings) (member : place ∈ places siblings) :
    place.doc source countsInside = docBefore source place.before :=
  place.doc_eq_docBefore (fun _ _ => rfl) spaced member (not_reachesOver_countsInside source place)

end Node

/-! ## Classes and methods of a tree -/

/-- A class is made of the node at a place, and each of its methods has the doc comment in front of
it among the members, if these are spaced. -/
structure ClassDecl.ReadAt (source : Text) (place : Node.Place) (decl : ClassDecl) : Prop where
  node : ∃ kind, place.node.classKind? = some kind ∧
    decl = place.node.toClass source kind decl.decl.doc
  methods : ∀ method ∈ decl.methods,
    ∃ body ∈ place.node.children, ∃ inner ∈ Node.places body.children,
    inner.node.kind = .method ∧ method = inner.node.toDeclaration source method.doc ∧
    (Node.Spaced source body.children → method.doc = Node.docBefore source inner.before)

theorem Node.readAt_toClass (source : Text) {place : Place} {kind : ClassKind}
    (isClass : place.node.classKind? = some kind) (doc : Option DocComment) :
    (place.node.toClass source kind doc).ReadAt source place := by
  refine ⟨⟨kind, isClass, rfl⟩, fun method member => ?_⟩
  rcases methods_toClass_cases source kind doc place.node with none | ⟨body, isChild, methods⟩
  · rw [none] at member
    cases member
  · rw [methods, List.mem_flatMap] at member
    obtain ⟨inner, isPlace, isMethod⟩ := member
    rw [Place.methods] at isMethod
    split at isMethod
    next kind =>
      obtain rfl := List.mem_singleton.1 isMethod
      exact ⟨body, isChild, inner, isPlace, kind, rfl,
        fun spaced => inner.doc_countsInside spaced isPlace⟩
    next => cases isMethod

/-- A class of a tree has the doc comment in front of it among its siblings, if these are spaced.
Only where the siblings are statements a doc comment may reach over one that does not count. -/
inductive ClassDecl.Documented (source : Text) (root : Node) (decl : ClassDecl) : Prop where
  | statement {counts : Node → Bool} {siblings : List Node} {place : Node.Place}
      (holds : root.HoldsStmts counts siblings) (isPlace : place ∈ Node.places siblings)
      (read : decl.ReadAt source place)
      (doc : Node.Spaced source siblings → place.HasDoc source counts decl.decl.doc)
  | inside {parent : Node} {place : Node.Place} (inTree : parent ∈ root.nodes)
      (isPlace : place ∈ Node.places parent.children) (read : decl.ReadAt source place)
      (doc : Node.Spaced source parent.children →
        decl.decl.doc = Node.docBefore source place.before)

namespace SourceUnit

/-- Every class of a tree has the doc comment in front of it, unless one reaches over a sibling that
does not count, and so has every method of a class. -/
theorem docs_ofTree (source : Text) (root : Node) :
    ∀ decl ∈ (ofTree source root).classes, decl.Documented source root := by
  intro decl member
  rw [classes_eq_flatMap_leaves] at member
  obtain ⟨stmt, isLeaf, inStmt⟩ := List.mem_flatMap.1 member
  obtain ⟨counts, siblings, holds, place, isPlace, made⟩ := Node.exists_place_of_mem_leaves isLeaf
  obtain ⟨-, ⟨kind, isClass, rfl⟩ | ⟨-, -, classes, -⟩⟩ := Node.toStmt?_cases made
  · obtain rfl := List.mem_singleton.1 inStmt
    exact .statement holds isPlace (Node.readAt_toClass source isClass _)
      fun spaced => place.hasDoc holds.counts_of_comment spaced isPlace
  · rcases classes with none | inner
    · rw [none] at inStmt
      cases inStmt
    · rw [inner] at inStmt
      obtain ⟨parent, inside, place', isPlace', kind, isClass, rfl⟩ :=
        Node.exists_place_of_mem_nestedClasses inStmt
      have inTree := holds.mem_nodes place.node (Node.node_mem_of_mem_places isPlace)
      exact .inside (Node.mem_nodes_trans inside inTree) isPlace'
        (Node.readAt_toClass source isClass _)
        fun spaced => place'.doc_countsInside spaced isPlace'

/-- A class has the doc comment in front of it although another comment stands between, and its
method has one too. -/
theorem docs_ofTree_commented_class :
    ∃ (source : Text) (root : Node) (decl : ClassDecl),
      (∀ parent ∈ root.nodes, Node.Spaced source parent.children) ∧
      decl ∈ (ofTree source root).classes ∧ decl.decl.doc.isSome ∧
      decl.methods.map (·.doc.isSome) = [true] ∧ decl.Documented source root := by
  let source := "<?php\n/** b */\n// c\nclass B \x7b /** d */ function e() \x7b\x7d \x7d\n".toList
  let leaf (kind : NodeKind) (start stop : Nat) : Node := ⟨kind, ⟨start, stop⟩, true, []⟩
  let token (start stop : Nat) : Node := ⟨.other, ⟨start, stop⟩, false, []⟩
  let method : Node := ⟨.method, ⟨39, 54⟩, true,
    [token 39 47, leaf .name 48 49, token 49 51, token 52 54]⟩
  let node : Node := ⟨.classDecl, ⟨20, 56⟩, true, [token 20 25, leaf .name 26 27,
    ⟨.members, ⟨28, 56⟩, true, [token 28 29, leaf .comment 30 38, method, token 55 56]⟩]⟩
  let root : Node := ⟨.other, ⟨0, 57⟩, true,
    [leaf .openTag 0 5, leaf .comment 6 14, leaf .comment 15 19, node]⟩
  let doc (start stop : Nat) (text : String) : DocComment := ⟨some ⟨start, stop⟩, text.toList⟩
  let decl : ClassDecl := ⟨.cls, ⟨['B'], ⟨20, 56⟩, 20, some (doc 6 14 "/** b */"), []⟩,
    [⟨['e'], ⟨39, 54⟩, 39, some (doc 30 38 "/** d */"), []⟩]⟩
  have member : decl ∈ (ofTree source root).classes := by decide +kernel
  refine ⟨source, root, decl, ?_, member, rfl, rfl, docs_ofTree source root decl member⟩
  decide +kernel

/-- A class gets a doc comment although punctuation stands between, since a comment follows it. -/
theorem doc_reaches_over_punctuation :
    ∃ (source : Text) (root node : Node) (before : List Node) (decl : ClassDecl),
      root.children = before ++ [node] ∧
      (∀ parent ∈ root.nodes, Node.Spaced source parent.children) ∧
      (ofTree source root).classes = [decl] ∧ decl.decl.span = node.span ∧
      Node.docBefore source before = none ∧ decl.decl.doc.isSome := by
  let source := "<?php\n/** @group a */\n;\n// note\nclass A {}\n".toList
  let leaf (kind : NodeKind) (start stop : Nat) : Node := ⟨kind, ⟨start, stop⟩, true, []⟩
  let token (start stop : Nat) : Node := ⟨.other, ⟨start, stop⟩, false, []⟩
  let node : Node := ⟨.classDecl, ⟨32, 42⟩, true, [token 32 37, leaf .name 38 39,
    ⟨.members, ⟨40, 42⟩, true, [token 40 41, token 41 42]⟩]⟩
  let before := [leaf .openTag 0 5, leaf .comment 6 21, token 22 23, leaf .comment 24 31]
  let root : Node := ⟨.other, ⟨0, 43⟩, true, before ++ [node]⟩
  let doc : DocComment := ⟨some ⟨6, 21⟩, "/** @group a */".toList⟩
  let decl : ClassDecl := ⟨.cls, ⟨['A'], ⟨32, 42⟩, 32, some doc, []⟩, []⟩
  refine ⟨source, root, node, before, decl, rfl, ?_, ?_, rfl, ?_, rfl⟩
  all_goals decide +kernel

end SourceUnit

end TagLift
