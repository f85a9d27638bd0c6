import TagLift.Print.Diff
import TagLift.Proofs.Text.Line

/-!
# What structural edits remove
-/

namespace TagLift

namespace Print

/-- A removed span is a statement's span with white space of its own lines: blanks of the line it
starts on, and blanks and the line feed of the line it ends on. -/
structure OnOwnLines (source : Text) (span removed : Span) : Prop where
  starts : removed.start ≤ span.start
  stops : span.stop ≤ removed.stop
  lead : Text.isAllBlank (Text.slice removed.start span.start source)
  oneLine : '\n' ∉ Text.slice removed.start span.start source
  tail : Text.isAllBlank (Text.slice span.stop removed.stop source)
  oneLine' : '\n' ∉ (Text.slice span.stop removed.stop source).dropLast

theorem onOwnLines_self (source : Text) (span : Span) : OnOwnLines source span span :=
  ⟨Nat.le_refl _, Nat.le_refl _, by simp [Text.isAllBlank], by simp, by simp [Text.isAllBlank],
    by simp⟩

/-- A whole line is its statement and white space. -/
theorem Page.onOwnLines_lineSpan (page : Page) (span : Span) :
    OnOwnLines page.source span (page.lineSpan span) := by
  simp only [lineSpan]
  split
  next alone =>
    simp only [Bool.and_eq_true] at alone
    obtain ⟨⟨⟨start, stop⟩, leadBlank⟩, tailBlank⟩ := alone
    obtain ⟨-, fits, lead⟩ := Text.slice_lastLine start
    have leadLine := Text.newline_notMem_lastLine (Text.takeBytes span.start page.source)
    have tailLine := Text.newline_notMem_firstLine (Text.dropBytes span.stop page.source)
    split
    next more =>
      obtain ⟨-, tail⟩ := Text.slice_firstLine_newline stop more
      refine ⟨Nat.sub_le _ _, by dsimp only; omega, ?_, ?_, ?_, ?_⟩
      · rw [lead]
        exact leadBlank
      · rw [lead]
        exact leadLine
      · rw [tail, Text.isAllBlank, List.all_append]
        exact Bool.and_eq_true_iff.2 ⟨tailBlank, rfl⟩
      · rw [tail, List.dropLast_concat]
        exact tailLine
    next =>
      obtain ⟨-, tail⟩ := Text.slice_firstLine stop
      refine ⟨Nat.sub_le _ _, by dsimp only; omega, ?_, ?_, ?_, ?_⟩
      · rw [lead]
        exact leadBlank
      · rw [lead]
        exact leadLine
      · rw [Nat.add_zero, tail]
        exact tailBlank
      · rw [Nat.add_zero, tail]
        exact fun member => tailLine ((List.dropLast_sublist _).subset member)
  · exact onOwnLines_self _ _

/-! ## Where removals come from -/

/-- The lists of statements that are compared when two lists are: the lists themselves, and the
bodies of namespaces with the same span. -/
inductive Compared (old new : List Stmt) : List Stmt → List Stmt → Prop where
  | whole : Compared old new old new
  | body {olds news oldBody newBody : List Stmt} {oldHead newHead : NamespaceHead}
      (outer : Compared old new olds news) (oldIn : .nspace oldHead oldBody ∈ olds)
      (newIn : .nspace newHead newBody ∈ news) (same : oldHead.span = newHead.span) :
      Compared old new oldBody newBody

/-- The declarations of two classes that belong together. -/
def declarationPairs (old new : ClassDecl) : List (Declaration × Declaration) :=
  (old.decl, new.decl) :: old.methods.zip new.methods

/-- The declarations of two statements that belong together. -/
def stmtPairs : Stmt → Stmt → List (Declaration × Declaration)
  | .classLike old, .classLike new => declarationPairs old new
  | .enclosing _ olds, .enclosing _ news =>
      (olds.zip news).flatMap fun (old, new) => declarationPairs old new
  | _, _ => []

/-- An old statement that has no place of its own in the new list: no new statement has its span,
or one only behind a statement with the span of a later old one, or an earlier old statement has
the same span. -/
def Gone (olds news : List Stmt) (index : Nat) (stmt : Stmt) : Prop :=
  ∀ (j : Nat) (other : Stmt), news[j]? = some other → other.span? = stmt.span? →
    (∃ i' j' : Nat, index < i' ∧ j' < j ∧ ∃ later before : Stmt, olds[i']? = some later ∧
      news[j']? = some before ∧ later.span?.isSome ∧ before.span? = later.span?) ∨
    ∃ i' < index, ∃ earlier : Stmt, olds[i']? = some earlier ∧ earlier.span? = stmt.span?

/-- What an edit that removes text may remove: a doc comment whose text changed, or a statement
that is gone, with white space of its own lines. -/
inductive Removes (source : Text) (old new : List Stmt) (removed : Span) : Prop where
  | doc {olds news : List Stmt} (compared : Compared old new olds news) {oldStmt newStmt : Stmt}
      (oldIn : oldStmt ∈ olds) (newIn : newStmt ∈ news) (same : oldStmt.span? = newStmt.span?)
      {oldDecl newDecl : Declaration} (pair : (oldDecl, newDecl) ∈ stmtPairs oldStmt newStmt)
      {oldDoc newDoc : DocComment} (had : oldDecl.doc = some oldDoc)
      (has : newDecl.doc = some newDoc) (changed : oldDoc.text ≠ newDoc.text)
      (span : newDoc.span = some removed)
  | stmt {olds news : List Stmt} (compared : Compared old new olds news) {index : Nat}
      {stmt : Stmt} {span : Span} (here : olds[index]? = some stmt)
      (gone : Gone olds news index stmt) (spanned : stmt.span? = some span)
      (own : OnOwnLines source span removed)

theorem removal_of_mem_docEdit {old new : Declaration} {edit : Edit}
    (member : edit ∈ Page.docEdit old new) :
    ∃ oldDoc newDoc, old.doc = some oldDoc ∧ new.doc = some newDoc ∧
      oldDoc.text ≠ newDoc.text ∧ newDoc.span = some edit.span := by
  simp only [Page.docEdit] at member
  split at member
  next oldDoc newDoc had has =>
    split at member
    next span spanned =>
      split at member
      · cases member
      next changed =>
        obtain rfl := List.mem_singleton.1 member
        exact ⟨oldDoc, newDoc, had, has, changed, spanned⟩
    · cases member
  · cases member

theorem start_of_mem_groupEdit {page : Page} {decl : Declaration} {edit : Edit}
    (member : edit ∈ page.groupEdit decl) : edit.start = edit.stop := by
  simp only [Page.groupEdit] at member
  split at member
  · cases member
  · split at member <;> obtain rfl := List.mem_singleton.1 member <;> rfl

/-- Inside a class only doc comments are removed. -/
theorem exists_docEdit_of_mem_diffClass {page : Page} {old new : ClassDecl} {edit : Edit}
    (removes : edit.start < edit.stop) (member : edit ∈ page.diffClass old new) :
    ∃ oldDecl newDecl, (oldDecl, newDecl) ∈ declarationPairs old new ∧
      edit ∈ Page.docEdit oldDecl newDecl := by
  have inDoc : ∀ oldDecl newDecl, edit ∈ page.diffDeclaration oldDecl newDecl →
      edit ∈ Page.docEdit oldDecl newDecl := by
    intro oldDecl newDecl inside
    rcases List.mem_append.1 inside with doc | group
    · exact doc
    · have := start_of_mem_groupEdit group
      omega
  rcases List.mem_append.1 member with own | inMethods
  · exact ⟨_, _, List.mem_cons_self, inDoc _ _ own⟩
  · obtain ⟨⟨oldDecl, newDecl⟩, together, inside⟩ := List.mem_flatMap.1 inMethods
    exact ⟨oldDecl, newDecl, List.mem_cons_of_mem _ together, inDoc _ _ inside⟩

theorem start_insertStmts (page : Page) (container : Container) (prev next : Option Stmt)
    (added : List Stmt) :
    (page.insertStmts container prev next added).start =
      (page.insertStmts container prev next added).stop := by
  simp only [Page.insertStmts]
  split
  · rfl
  · split <;> rfl

/-- A gap only removes deleted statements. -/
theorem removal_of_mem_fillGap {page : Page} {container : Container} {prev next : Option Stmt}
    {deleted added : List Stmt} {edit : Edit}
    (member : edit ∈ page.fillGap container prev next deleted added)
    (removes : edit.start < edit.stop) :
    ∃ stmt ∈ deleted, ∃ span, stmt.span? = some span ∧ OnOwnLines page.source span edit.span := by
  have delete : ∀ stmts ⊆ deleted, edit ∈ stmts.flatMap page.deleteStmt →
      ∃ stmt ∈ deleted, ∃ span, stmt.span? = some span ∧
        OnOwnLines page.source span edit.span := by
    intro stmts subset inside
    obtain ⟨stmt, gone, inside⟩ := List.mem_flatMap.1 inside
    simp only [Page.deleteStmt] at inside
    split at inside
    next span spanned =>
      obtain rfl := List.mem_singleton.1 inside
      exact ⟨stmt, subset gone, span, spanned, page.onOwnLines_lineSpan span⟩
    · cases inside
  cases deleted with
  | nil =>
      cases added with
      | nil => simp [Page.fillGap] at member
      | cons stmt added =>
          obtain rfl := List.mem_singleton.1 member
          have same := start_insertStmts page container prev next (stmt :: added)
          omega
  | cons first rest =>
      cases added with
      | nil => exact delete (first :: rest) (List.Subset.refl _) member
      | cons stmt added =>
          simp only [Page.fillGap] at member
          split at member
          next span spanned =>
            rcases List.mem_cons.1 member with rfl | later
            · exact ⟨first, by simp, span, spanned, onOwnLines_self _ _⟩
            · exact delete rest (List.subset_cons_self first rest) later
          · cases member

theorem diffStmts_cons (page : Page) (container : Container) (prev : Option Stmt)
    (old added : List Stmt) (stmt : Stmt) (rest : List Stmt) :
    page.diffStmts container prev old added (stmt :: rest) =
      match Page.splitAtSpan stmt.span? old with
      | some (deleted, survivor, remaining) =>
          page.fillGap container prev (some survivor) deleted added ++
            page.diffStmt survivor stmt ++
            page.diffStmts container (some survivor) remaining [] rest
      | none => page.diffStmts container prev old (added ++ [stmt]) rest := rfl

theorem splitAtSpan_eq_some {span : Option Span} {old deleted remaining : List Stmt}
    {survivor : Stmt} (found : Page.splitAtSpan span old = some (deleted, survivor, remaining)) :
    span.isSome ∧ old = deleted ++ survivor :: remaining ∧ survivor.span? = span ∧
      ∀ stmt ∈ deleted, stmt.span? ≠ span := by
  induction old generalizing deleted with
  | nil => simp [Page.splitAtSpan] at found
  | cons stmt old ih =>
      rw [Page.splitAtSpan] at found
      split at found
      next here =>
        simp only [Option.some.injEq, Prod.mk.injEq] at found
        obtain ⟨rfl, rfl, rfl⟩ := found
        exact ⟨here.1, rfl, here.2, by simp⟩
      next other =>
        obtain ⟨⟨before, there, after⟩, later, equal⟩ := Option.map_eq_some_iff.1 found
        simp only [Prod.mk.injEq] at equal
        obtain ⟨rfl, rfl, rfl⟩ := equal
        obtain ⟨some, rfl, spanned, others⟩ := ih later
        refine ⟨some, rfl, spanned, ?_⟩
        simp only [some, true_and] at other
        simpa [other] using others

theorem splitAtSpan_eq_none {span : Option Span} {old : List Stmt}
    (absent : Page.splitAtSpan span old = none) (some : span.isSome) :
    ∀ stmt ∈ old, stmt.span? ≠ span := by
  induction old with
  | nil => simp
  | cons stmt old ih =>
      rw [Page.splitAtSpan] at absent
      split at absent
      · cases absent
      next other =>
        simp only [some, true_and] at other
        simpa [other] using ih (by simpa using absent)

/-- The old statements from `k` on that share a span with one of the first `p` new ones share it
with an earlier old one. -/
def Passed (olds news : List Stmt) (k p : Nat) : Prop :=
  ∀ (i j : Nat) (stmt other : Stmt), k ≤ i → j < p → olds[i]? = some stmt → news[j]? = some other →
    stmt.span?.isSome → other.span? = stmt.span? →
      ∃ i' < i, ∃ earlier : Stmt, olds[i']? = some earlier ∧ earlier.span? = stmt.span?

theorem getElem?_of_drop_eq {items rest : List Stmt} {item : Stmt} {n : Nat}
    (split : items.drop n = item :: rest) : items[n]? = some item := by
  have found := congrArg (·[0]?) split
  simpa using found

theorem drop_of_drop_eq {items front rest : List Stmt} {item : Stmt} {n : Nat}
    (split : items.drop n = front ++ item :: rest) :
    items.drop (n + front.length + 1) = rest := by
  rw [Nat.add_assoc, ← List.drop_drop, split]
  simp

/-- The next new statement has an old one to survive. -/
theorem Passed.survivor {olds news deleted after : List Stmt} {survivor stmt : Stmt} {k p : Nat}
    (passed : Passed olds news k p) (split : olds.drop k = deleted ++ survivor :: after)
    (here : news[p]? = some stmt) (same : survivor.span? = stmt.span?) :
    Passed olds news (k + deleted.length + 1) (p + 1) := by
  intro i j old new after before oldHere newHere some equal
  rcases Nat.lt_succ_iff_lt_or_eq.1 before with earlier | rfl
  · exact passed i j old new (by omega) earlier oldHere newHere some equal
  · obtain rfl : stmt = new := Option.some.inj (here.symm.trans newHere)
    have survives : olds[k + deleted.length]? = Option.some survivor := by
      rw [← List.getElem?_drop, split]
      simp
    exact ⟨k + deleted.length, by omega, survivor, survives, same.trans equal⟩

/-- The next new statement has no old one to survive. -/
theorem Passed.absent {olds news : List Stmt} {stmt : Stmt} {k p : Nat}
    (passed : Passed olds news k p) (here : news[p]? = some stmt)
    (others : stmt.span?.isSome → ∀ old ∈ olds.drop k, old.span? ≠ stmt.span?) :
    Passed olds news k (p + 1) := by
  intro i j old new after before oldHere newHere some equal
  rcases Nat.lt_succ_iff_lt_or_eq.1 before with earlier | rfl
  · exact passed i j old new after earlier oldHere newHere some equal
  · obtain rfl : stmt = new := Option.some.inj (here.symm.trans newHere)
    have member : old ∈ olds.drop k := by
      apply List.mem_of_getElem? (i := i - k)
      rw [List.getElem?_drop, show k + (i - k) = i by omega, oldHere]
    exact absurd equal.symm (others (equal ▸ some) old member)

/-- The statements of a gap that ends at a survivor are gone. -/
theorem Passed.gone_of_survivor {olds news deleted after : List Stmt} {survivor stmt gone : Stmt}
    {k p d : Nat} (passed : Passed olds news k p)
    (split : olds.drop k = deleted ++ survivor :: after) (here : news[p]? = some stmt)
    (placed : survivor.span?.isSome) (same : survivor.span? = stmt.span?)
    (others : ∀ old ∈ deleted, old.span? ≠ stmt.span?) (member : deleted[d]? = some gone)
    (spanned : gone.span?.isSome) :
    olds[k + d]? = some gone ∧ Gone olds news (k + d) gone := by
  obtain ⟨bound, -⟩ := List.getElem?_eq_some_iff.1 member
  have oldHere : olds[k + d]? = Option.some gone := by
    rw [← List.getElem?_drop, split, List.getElem?_append_left bound, member]
  refine ⟨oldHere, ?_⟩
  intro j other otherHere equal
  rcases Nat.lt_trichotomy j p with before | rfl | after
  · exact .inr (passed (k + d) j gone other (by omega) before oldHere otherHere spanned equal)
  · obtain rfl : stmt = other := Option.some.inj (here.symm.trans otherHere)
    exact absurd equal.symm (others gone (List.mem_of_getElem? member))
  · have survives : olds[k + deleted.length]? = Option.some survivor := by
      rw [← List.getElem?_drop, split]
      simp
    exact .inl ⟨k + deleted.length, p, by omega, after, survivor, stmt, survives, here, placed,
      same.symm⟩

/-- An edit that removes text lies inside a statement that stays, or removes a statement that is
gone. -/
theorem mem_diffStmts_cases (page : Page) (container : Container) {olds news : List Stmt}
    {edit : Edit} (removes : edit.start < edit.stop) {rest remaining added : List Stmt}
    {prev : Option Stmt} {k p : Nat} (oldRest : olds.drop k = remaining)
    (newRest : news.drop p = rest) (passed : Passed olds news k p)
    (member : edit ∈ page.diffStmts container prev remaining added rest) :
    (∃ oldStmt ∈ olds, ∃ newStmt ∈ news, oldStmt.span? = newStmt.span? ∧
      edit ∈ page.diffStmt oldStmt newStmt) ∨
    ∃ index stmt span, olds[index]? = some stmt ∧ Gone olds news index stmt ∧
      stmt.span? = some span ∧ OnOwnLines page.source span edit.span := by
  -- The new statements are taken one by one; `k` old and `p` new ones are behind.
  induction rest generalizing prev remaining added k p with
  | nil =>
      change edit ∈ page.fillGap container prev none remaining added at member
      obtain ⟨stmt, inside, span, spanned, own⟩ := removal_of_mem_fillGap member removes
      obtain ⟨d, inside⟩ := List.getElem?_of_mem inside
      rw [← oldRest, List.getElem?_drop] at inside
      refine .inr ⟨k + d, stmt, span, inside, ?_, spanned, own⟩
      intro j other otherHere equal
      have all := List.drop_eq_nil_iff.1 newRest
      obtain ⟨bound, -⟩ := List.getElem?_eq_some_iff.1 otherHere
      exact .inr (passed (k + d) j stmt other (by omega) (by omega) inside otherHere
        (by simp [spanned]) equal)
  | cons stmt rest ih =>
      have here := getElem?_of_drop_eq newRest
      have later : news.drop (p + 1) = rest := by rw [← List.drop_drop, newRest]; rfl
      rw [diffStmts_cons] at member
      split at member
      next deleted survivor after found =>
        obtain ⟨placed, split, same, others⟩ := splitAtSpan_eq_some found
        rw [split] at oldRest
        rcases List.mem_append.1 member with inFront | inRest
        · rcases List.mem_append.1 inFront with inGap | inStmt
          · obtain ⟨gone, inside, span, spanned, own⟩ := removal_of_mem_fillGap inGap removes
            obtain ⟨d, inside⟩ := List.getElem?_of_mem inside
            obtain ⟨oldHere, isGone⟩ := passed.gone_of_survivor oldRest here (same ▸ placed) same
              others inside (by simp [spanned])
            exact .inr ⟨k + d, gone, span, oldHere, isGone, spanned, own⟩
          · have oldIn : survivor ∈ olds := by
              apply List.mem_of_mem_drop (i := k)
              simp [oldRest]
            exact .inl ⟨survivor, oldIn, stmt, List.mem_of_getElem? here, same, inStmt⟩
        · exact ih (drop_of_drop_eq oldRest) later (passed.survivor oldRest here same) inRest
      next absent =>
        refine ih oldRest later (passed.absent here fun some old inside => ?_) member
        exact splitAtSpan_eq_none absent some old (oldRest ▸ inside)

/-- An edit inside a statement that stays removes a doc comment that changed or a statement that
is gone. -/
theorem removes_of_mem_diffStmt (page : Page) {old new olds news : List Stmt}
    (compared : Compared old new olds news) {oldStmt newStmt : Stmt} (oldIn : oldStmt ∈ olds)
    (newIn : newStmt ∈ news) (same : oldStmt.span? = newStmt.span?) {edit : Edit}
    (removes : edit.start < edit.stop) (member : edit ∈ page.diffStmt oldStmt newStmt) :
    Removes page.source old new edit.span := by
  match newStmt with
  | .nspace newHead newBody =>
      cases oldStmt with
      | nspace oldHead oldBody =>
          have inside := compared.body oldIn newIn (by simpa [Stmt.span?] using same)
          change edit ∈ page.diffStmts _ none oldBody [] newBody at member
          rcases mem_diffStmts_cases page _ removes List.drop_zero List.drop_zero
            (by intro i j; omega) member with
            ⟨oldStmt, oldIn, newStmt, newIn, same, member⟩ |
            ⟨index, stmt, span, here, gone, spanned, own⟩
          · exact removes_of_mem_diffStmt page inside oldIn newIn same removes member
          · exact .stmt inside here gone spanned own
      | classLike | enclosing | uses | inclusion | declare | other => cases member
  | .classLike newDecl =>
      cases oldStmt with
      | classLike oldDecl =>
          obtain ⟨oldDecl, newDecl, pair, inDoc⟩ := exists_docEdit_of_mem_diffClass removes member
          obtain ⟨oldDoc, newDoc, had, has, changed, spanned⟩ := removal_of_mem_docEdit inDoc
          exact .doc compared oldIn newIn same pair had has changed spanned
      | nspace | enclosing | uses | inclusion | declare | other => cases member
  | .enclosing _ newClasses =>
      cases oldStmt with
      | enclosing _ oldClasses =>
          obtain ⟨⟨oldClass, newClass⟩, together, inClass⟩ := List.mem_flatMap.1 member
          obtain ⟨oldDecl, newDecl, pair, inDoc⟩ := exists_docEdit_of_mem_diffClass removes inClass
          obtain ⟨oldDoc, newDoc, had, has, changed, spanned⟩ := removal_of_mem_docEdit inDoc
          exact .doc compared oldIn newIn same (List.mem_flatMap.2 ⟨_, together, pair⟩) had has
            changed spanned
      | nspace | classLike | uses | inclusion | declare | other => cases member
  | .uses _ _ | .inclusion _ | .declare _ | .other _ => cases member
termination_by sizeOf newStmt

end Print

end TagLift
