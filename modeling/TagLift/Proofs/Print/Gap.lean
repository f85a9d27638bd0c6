import TagLift.Proofs.Print.Fits

/-!
# Where new statements are written

A list of statements is rewritten: imports go, what stays is changed in place, and a block of new
imports is put behind the leading inclusions and `declare` statements, or in front of all. One edit
writes the block, and the old statements alone say where: at the first import that goes behind the
last leading statement, or else behind that statement, or else in front of the first statement. All
other edits delete an import or lie inside a statement that stays.
-/

namespace TagLift

namespace Stmt

/-- Statements of the source, no two of which have the same span. -/
structure Spanned (stmts : List Stmt) : Prop where
  spanned : ∀ stmt ∈ stmts, ∃ span, stmt.span? = some span
  distinct : stmts.Pairwise fun a b => a.span? ≠ b.span?

theorem Spanned.sublist {stmts fewer : List Stmt} (all : Spanned stmts)
    (part : fewer.Sublist stmts) : Spanned fewer :=
  ⟨fun stmt member => all.spanned stmt (part.subset member), all.distinct.sublist part⟩

/-- The offset at which new imports are written into statements. The last leading statement ends at
`behind`, and the first import since starts at `first`. -/
def importPlaceFrom? (afterPreamble : Bool) (behind first : Option Nat) : List Stmt → Option Nat
  | [] => none
  | stmt :: rest =>
      if stmt.isUse then
        importPlaceFrom? afterPreamble behind (first.or (stmt.span?.map (·.start))) rest
      else if afterPreamble && stmt.isPreamble then
        importPlaceFrom? afterPreamble (stmt.span?.map (·.stop)) none rest
      else first.or (behind.or (stmt.span?.map (·.start)))

/-- The offset at which new imports are written into the statements of a scope. -/
def importPlace? (afterPreamble : Bool) (stmts : List Stmt) : Option Nat :=
  importPlaceFrom? afterPreamble none none stmts

/-- The statements without imports, changed in place, with a block in front or behind the leading
inclusions and `declare` statements. -/
def withImports (change : Stmt → Stmt) (afterPreamble : Bool) (block : List Stmt) :
    List Stmt → List Stmt
  | [] => block
  | stmt :: rest =>
      if stmt.isUse then withImports change afterPreamble block rest
      else if afterPreamble && stmt.isPreamble then
        change stmt :: withImports change afterPreamble block rest
      else block ++ ((stmt :: rest).filter (!·.isUse)).map change

section Cases

variable (change : Stmt → Stmt) {afterPreamble : Bool} (behind first : Option Nat)
  (block rest : List Stmt) {stmt : Stmt}

theorem importPlaceFrom?_use (use : stmt.isUse) :
    importPlaceFrom? afterPreamble behind first (stmt :: rest) =
      importPlaceFrom? afterPreamble behind (first.or (stmt.span?.map (·.start))) rest :=
  if_pos use

theorem importPlaceFrom?_lead (other : stmt.isUse = false)
    (leads : (afterPreamble && stmt.isPreamble) = true) :
    importPlaceFrom? afterPreamble behind first (stmt :: rest) =
      importPlaceFrom? afterPreamble (stmt.span?.map (·.stop)) none rest := by
  simp [importPlaceFrom?, other, leads]

theorem importPlaceFrom?_stay (other : stmt.isUse = false)
    (stays : (afterPreamble && stmt.isPreamble) = false) :
    importPlaceFrom? afterPreamble behind first (stmt :: rest) =
      first.or (behind.or (stmt.span?.map (·.start))) := by
  simp [importPlaceFrom?, other, stays]

theorem withImports_use (use : stmt.isUse) :
    withImports change afterPreamble block (stmt :: rest) =
      withImports change afterPreamble block rest :=
  if_pos use

theorem withImports_lead (other : stmt.isUse = false)
    (leads : (afterPreamble && stmt.isPreamble) = true) :
    withImports change afterPreamble block (stmt :: rest) =
      change stmt :: withImports change afterPreamble block rest := by
  simp [withImports, other, leads]

theorem withImports_stay (other : stmt.isUse = false)
    (stays : (afterPreamble && stmt.isPreamble) = false) :
    withImports change afterPreamble block (stmt :: rest) =
      block ++ change stmt :: (rest.filter (!·.isUse)).map change := by
  simp [withImports, other, stays]

end Cases

theorem importPlaceFrom?_of_first (behind : Option Nat) (first : Nat) {stmts : List Stmt}
    (other : ∃ stmt ∈ stmts, stmt.isUse = false) :
    importPlaceFrom? false behind (some first) stmts = some first := by
  induction stmts with
  | nil => simp at other
  | cons stmt stmts ih =>
      cases use : stmt.isUse with
      | true =>
          rw [importPlaceFrom?_use _ _ _ use]
          exact ih (by simpa [use] using other)
      | false => exact importPlaceFrom?_stay _ _ _ use rfl

/-- In a namespace new imports are written where the first statement starts. -/
theorem importPlace?_namespace {stmts : List Stmt} (spanned : Spanned stmts)
    (other : ∃ stmt ∈ stmts, stmt.isUse = false) :
    importPlace? false stmts = stmts.head?.bind (·.span?.map (·.start)) := by
  cases stmts with
  | nil => rfl
  | cons stmt stmts =>
      obtain ⟨span, atStmt⟩ := spanned.spanned stmt (by simp)
      cases use : stmt.isUse with
      | true =>
          have first := importPlaceFrom?_of_first none span.start (by simpa [use] using other)
          simpa [importPlace?, importPlaceFrom?_use _ _ _ use, atStmt] using first
      | false => exact importPlaceFrom?_stay _ _ _ use rfl

end Stmt

namespace Print

/-- The edit for a block of new statements next to an old one or in its place. -/
inductive Page.GapEdit (page : Page) (block : List Stmt) (stmt : Stmt) (span : Span) : Edit → Prop
  | after : GapEdit page block stmt span
      (.insert span.stop (page.renderAfter (lineIndent page.source span.start) stmt block))
  | before : GapEdit page block stmt span
      (.insert span.start (page.renderBefore (lineIndent page.source span.start) stmt block))
  | instead : GapEdit page block stmt span
      ⟨span.start, span.stop, page.renderBlock (lineIndent page.source span.start) block⟩

/-- An edit that deletes an old statement or lies inside one that stays. -/
def Page.OldEdit (page : Page) (change : Stmt → Stmt) (olds : List Stmt) (edit : Edit) : Prop :=
  ∃ stmt ∈ olds, edit ∈ page.deleteStmt stmt ∨ edit ∈ page.diffStmt stmt (change stmt)

theorem Page.OldEdit.mono {page : Page} {change : Stmt → Stmt} {olds more : List Stmt} {edit : Edit}
    (old : page.OldEdit change olds edit) (subset : olds ⊆ more) :
    page.OldEdit change more edit := by
  obtain ⟨stmt, member, inside⟩ := old
  exact ⟨stmt, subset member, inside⟩

/-- One of the edits writes the block at a place next to an old statement, and all others are of old
statements. -/
def Page.WritesBlock (page : Page) (change : Stmt → Stmt) (block olds : List Stmt)
    (place : Option Nat) (edits : List Edit) : Prop :=
  ∃ written ∈ edits, place = some written.start ∧
    (∃ stmt ∈ olds, ∃ span, stmt.span? = some span ∧ page.GapEdit block stmt span written) ∧
    ∀ edit ∈ edits, edit = written ∨ page.OldEdit change olds edit

/-- Edits of old statements may stand in front. -/
theorem Page.WritesBlock.append_left {page : Page} {change : Stmt → Stmt}
    {block olds more : List Stmt} {place : Option Nat} {front edits : List Edit}
    (writes : page.WritesBlock change block olds place edits) (subset : olds ⊆ more)
    (old : ∀ edit ∈ front, page.OldEdit change more edit) :
    page.WritesBlock change block more place (front ++ edits) := by
  obtain ⟨written, member, atPlace, ⟨stmt, isOld, gap⟩, others⟩ := writes
  refine ⟨written, by simp [member], atPlace, ⟨stmt, subset isOld, gap⟩, fun edit inside => ?_⟩
  rcases List.mem_append.1 inside with inFront | here
  · exact .inr (old edit inFront)
  · exact (others edit here).imp id fun old => old.mono subset

/-- Edits of old statements may stand behind. -/
theorem Page.WritesBlock.append_right {page : Page} {change : Stmt → Stmt}
    {block olds more : List Stmt} {place : Option Nat} {edits back : List Edit}
    (writes : page.WritesBlock change block olds place edits) (subset : olds ⊆ more)
    (old : ∀ edit ∈ back, page.OldEdit change more edit) :
    page.WritesBlock change block more place (edits ++ back) := by
  obtain ⟨written, member, atPlace, ⟨stmt, isOld, gap⟩, others⟩ := writes
  refine ⟨written, by simp [member], atPlace, ⟨stmt, subset isOld, gap⟩, fun edit inside => ?_⟩
  rcases List.mem_append.1 inside with here | inBack
  · exact (others edit here).imp id fun old => old.mono subset
  · exact .inr (old edit inBack)

variable (page : Page) (container : Container)

/-- Statements without a span wait for the next one that stays. -/
theorem diffStmts_append_of_new {prev : Option Stmt} {olds added block : List Stmt}
    (new : ∀ stmt ∈ block, stmt.span? = none) (news : List Stmt) :
    page.diffStmts container prev olds added (block ++ news) =
      page.diffStmts container prev olds (added ++ block) news := by
  induction block generalizing added with
  | nil => simp
  | cons stmt block ih =>
      obtain ⟨here, later⟩ := List.forall_mem_cons.1 new
      rw [List.cons_append, diffStmts_cons, here, splitAtSpan_none]
      change page.diffStmts container prev olds (added ++ [stmt]) (block ++ news) = _
      rw [ih later, List.append_assoc, List.singleton_append]

/-- A statement that stays ends the gap in front of it. -/
theorem diffStmts_cons_of_kept {prev : Option Stmt} {pending olds added news : List Stmt}
    {stmt new : Stmt} (spanned : Stmt.Spanned (pending ++ stmt :: olds))
    (same : new.span? = stmt.span?) :
    page.diffStmts container prev (pending ++ stmt :: olds) added (new :: news) =
      page.fillGap container prev (some stmt) pending added ++ page.diffStmt stmt new ++
        page.diffStmts container (some stmt) olds [] news := by
  obtain ⟨span, here⟩ := spanned.spanned stmt (by simp)
  have others : ∀ other ∈ pending, other.span? ≠ some span := by
    intro other member
    rw [← here]
    exact (List.pairwise_append.1 spanned.distinct).2.2 other member stmt (by simp)
  rw [diffStmts_cons, same, here, splitAtSpan_append others here]

/-- Statements that all stay where they are have only edits inside. -/
theorem diffStmts_eq_flatMap_zip {prev : Option Stmt} {olds news : List Stmt}
    (same : List.Forall₂ (fun old new => old.span?.isSome ∧ new.span? = old.span?) olds news) :
    page.diffStmts container prev olds [] news =
      (olds.zip news).flatMap fun pair => page.diffStmt pair.1 pair.2 := by
  -- The first statement left is always the one that is looked for, so no gap ever opens.
  induction same generalizing prev with
  | nil => rfl
  | @cons old new olds news here _ ih =>
      have found : Page.splitAtSpan new.span? (old :: olds) = some ([], old, olds) := by
        rw [Page.splitAtSpan, if_pos ⟨here.2 ▸ here.1, here.2.symm⟩]
      rw [diffStmts_cons, found, List.zip_cons_cons, List.flatMap_cons]
      simp [ih, Page.fillGap]

/-- A gap into which nothing is written only loses statements. -/
theorem oldEdit_of_mem_fillGap (change : Stmt → Stmt) {prev next : Option Stmt} {gone : List Stmt}
    {edit : Edit} (member : edit ∈ page.fillGap container prev next gone []) :
    page.OldEdit change gone edit := by
  cases gone with
  | nil => cases member
  | cons stmt gone =>
      obtain ⟨old, isGone, inside⟩ := List.mem_flatMap.1 member
      exact ⟨old, isGone, .inl inside⟩

/-- The gap in front of a statement that stays writes its block where its first import goes, or else
behind the statement before, or else in front of the one that stays. -/
theorem writesBlock_fillGap (change : Stmt → Stmt) {prev : Option Stmt} {pending block : List Stmt}
    {stmt : Stmt} (spanned : Stmt.Spanned (prev.toList ++ pending ++ [stmt]))
    (filled : block ≠ []) :
    page.WritesBlock change block (prev.toList ++ pending ++ [stmt])
      ((pending.head?.bind (·.span?.map (·.start))).or
        ((prev.bind (·.span?.map (·.stop))).or (stmt.span?.map (·.start))))
      (page.fillGap container prev (some stmt) pending block) := by
  obtain ⟨first, block, rfl⟩ := List.exists_cons_of_ne_nil filled
  have single (edit : Edit) : ∀ other ∈ [edit], other = edit ∨
      page.OldEdit change (prev.toList ++ pending ++ [stmt]) other :=
    fun other member => .inl (List.mem_singleton.1 member)
  cases pending with
  | nil =>
      cases prev with
      | none =>
          obtain ⟨span, atStmt⟩ := spanned.spanned stmt (by simp)
          refine ⟨_, List.mem_singleton_self _, ?_, ⟨stmt, by simp, span, atStmt, ?_⟩, single _⟩
          · simp [Page.insertStmts, atStmt, Edit.insert]
          · simp only [Page.insertStmts, Option.bind_none, Option.bind_some, atStmt,
              Option.map_some]
            exact .before
      | some before =>
          obtain ⟨span, atBefore⟩ := spanned.spanned before (by simp)
          refine ⟨_, List.mem_singleton_self _, ?_, ⟨before, by simp, span, atBefore, ?_⟩, single _⟩
          · simp [Page.insertStmts, atBefore, Edit.insert]
          · simp only [Page.insertStmts, Option.bind_some, atBefore, Option.map_some]
            exact .after
  | cons use uses =>
      obtain ⟨span, atUse⟩ := spanned.spanned use (by simp)
      simp only [Page.fillGap, atUse]
      refine ⟨_, List.mem_cons_self, by simp [atUse], ⟨use, by simp, span, atUse, .instead⟩, ?_⟩
      intro edit member
      rcases List.mem_cons.1 member with rfl | later
      · exact .inl rfl
      · obtain ⟨gone, isGone, inside⟩ := List.mem_flatMap.1 later
        exact .inr ⟨gone, by simp [isGone], .inl inside⟩

section Kept

variable {change : Stmt → Stmt} (placed : ∀ stmt, (change stmt).span? = stmt.span?)

include placed

/-- Where nothing is added, statements are deleted or stay. -/
theorem oldEdit_of_filter (stays : Stmt → Bool) {prev : Option Stmt} {pending olds : List Stmt}
    (spanned : Stmt.Spanned (pending ++ olds)) {edit : Edit}
    (member : edit ∈ page.diffStmts container prev (pending ++ olds) []
      ((olds.filter stays).map change)) :
    page.OldEdit change (pending ++ olds) edit := by
  -- What goes waits in `pending` for the gap to end at the next statement that stays.
  induction olds generalizing prev pending with
  | nil => exact oldEdit_of_mem_fillGap page container change member
  | cons stmt olds ih =>
      cases keeps : stays stmt with
      | false =>
          rw [List.filter_cons_of_neg (by simp [keeps]), List.append_cons] at member
          rw [List.append_cons] at spanned ⊢
          exact ih spanned member
      | true =>
          rw [List.filter_cons_of_pos keeps, List.map_cons,
            diffStmts_cons_of_kept page container spanned (placed stmt)] at member
          have behind : olds.Sublist (pending ++ stmt :: olds) :=
            (List.sublist_cons_self stmt olds).trans (List.sublist_append_right pending _)
          rcases List.mem_append.1 member with inFront | later
          · rcases List.mem_append.1 inFront with inGap | inside
            · exact (oldEdit_of_mem_fillGap page container change inGap).mono (by simp)
            · exact ⟨stmt, by simp, .inr inside⟩
          · have rest : Stmt.Spanned ([] ++ olds) := spanned.sublist behind
            exact (ih rest later).mono behind.subset

theorem oldEdit_of_map {prev : Option Stmt} {olds : List Stmt} (spanned : Stmt.Spanned olds)
    {edit : Edit} (member : edit ∈ page.diffStmts container prev olds [] (olds.map change)) :
    page.OldEdit change olds edit := by
  have all : olds.filter (fun _ => true) = olds := List.filter_eq_self.2 (by simp)
  have whole : Stmt.Spanned ([] ++ olds) := spanned
  have kept : edit ∈ page.diffStmts container prev ([] ++ olds) []
      ((olds.filter fun _ => true).map change) := by rwa [all]
  exact oldEdit_of_filter page container placed _ whole kept

/-- One edit writes the block, at the place that the old statements give. -/
theorem writesBlock_withImports {afterPreamble : Bool} {prev : Option Stmt}
    {pending olds block : List Stmt} (new : ∀ stmt ∈ block, stmt.span? = none)
    (filled : block ≠ []) (spanned : Stmt.Spanned (prev.toList ++ pending ++ olds))
    (other : ∃ stmt ∈ olds, stmt.isUse = false ∧ (afterPreamble && stmt.isPreamble) = false) :
    page.WritesBlock change block (prev.toList ++ pending ++ olds)
      (Stmt.importPlaceFrom? afterPreamble (prev.bind (·.span?.map (·.stop)))
        (pending.head?.bind (·.span?.map (·.start))) olds)
      (page.diffStmts container prev (pending ++ olds) []
        (Stmt.withImports change afterPreamble block olds)) := by
  induction olds generalizing prev pending with
  | nil => simp at other
  | cons stmt olds ih =>
      have part : (pending ++ stmt :: olds).Sublist (prev.toList ++ pending ++ stmt :: olds) := by
        rw [List.append_assoc]
        exact List.sublist_append_right _ _
      have later (passed : ¬ (stmt.isUse = false ∧ (afterPreamble && stmt.isPreamble) = false)) :
          ∃ stmt ∈ olds, stmt.isUse = false ∧ (afterPreamble && stmt.isPreamble) = false := by
        obtain ⟨found, member, ends⟩ := other
        rcases List.mem_cons.1 member with rfl | behind
        · exact absurd ends passed
        · exact ⟨found, behind, ends⟩
      cases use : stmt.isUse with
      | true =>
          -- An import waits for its gap to end, and the first one that waits marks the place.
          have marks : (pending ++ [stmt]).head?.bind (·.span?.map (·.start)) =
              (pending.head?.bind (·.span?.map (·.start))).or (stmt.span?.map (·.start)) := by
            cases pending with
            | nil => simp
            | cons first pending =>
                obtain ⟨span, atFirst⟩ := spanned.spanned first (by simp)
                simp [atFirst]
          have waits : prev.toList ++ pending ++ stmt :: olds =
              prev.toList ++ (pending ++ [stmt]) ++ olds := by simp
          have rest := ih (waits ▸ spanned) (later (by simp [use]))
          rw [marks, List.append_assoc pending] at rest
          rw [Stmt.importPlaceFrom?_use _ _ _ use, Stmt.withImports_use _ _ _ use, waits]
          exact rest
      | false =>
          cases leads : afterPreamble && stmt.isPreamble with
          | true =>
              rw [Stmt.importPlaceFrom?_lead _ _ _ use leads, Stmt.withImports_lead _ _ _ use leads,
                diffStmts_cons_of_kept page container (spanned.sublist part) (placed stmt)]
              have behind : (stmt :: olds).Sublist (prev.toList ++ pending ++ stmt :: olds) :=
                List.sublist_append_right _ _
              have spannedRest : Stmt.Spanned ((some stmt).toList ++ [] ++ olds) :=
                spanned.sublist behind
              have rest := ih spannedRest (later (by simp [leads]))
              refine rest.append_left behind.subset fun edit member => ?_
              rcases List.mem_append.1 member with inGap | inside
              · refine (oldEdit_of_mem_fillGap page container change inGap).mono ?_
                exact ((List.sublist_append_right _ _).trans (List.sublist_append_left _ _)).subset
              · exact ⟨stmt, by simp, .inr inside⟩
          | false =>
              rw [Stmt.importPlaceFrom?_stay _ _ _ use leads, Stmt.withImports_stay _ _ _ use leads,
                diffStmts_append_of_new page container new, List.nil_append,
                diffStmts_cons_of_kept page container (spanned.sublist part) (placed stmt),
                List.append_assoc (page.fillGap _ _ _ _ _)]
              have front : (prev.toList ++ pending ++ [stmt]).Sublist
                  (prev.toList ++ pending ++ stmt :: olds) :=
                (List.sublist_append_left [stmt] olds).append_left _
              have behind : olds.Sublist (prev.toList ++ pending ++ stmt :: olds) :=
                (List.sublist_cons_self stmt olds).trans (List.sublist_append_right _ _)
              have gap := writesBlock_fillGap page container change (spanned.sublist front) filled
              refine gap.append_right front.subset fun edit member => ?_
              rcases List.mem_append.1 member with inside | inRest
              · exact ⟨stmt, by simp, .inr inside⟩
              · have rest : Stmt.Spanned ([] ++ olds) := spanned.sublist behind
                exact (oldEdit_of_filter page container placed _ rest inRest).mono behind.subset

/-- A block in front of statements that all stay is written where the first of them starts. -/
theorem writesBlock_front {olds block : List Stmt} (new : ∀ stmt ∈ block, stmt.span? = none)
    (filled : block ≠ []) (spanned : Stmt.Spanned olds)
    (other : ∃ stmt ∈ olds, stmt.isUse = false) :
    page.WritesBlock change block olds (Stmt.importPlace? false olds)
      (page.diffStmts container none olds [] (block ++ olds.map change)) := by
  rw [Stmt.importPlace?_namespace spanned other]
  cases olds with
  | nil => simp at other
  | cons stmt olds =>
      have whole : Stmt.Spanned ([] ++ stmt :: olds) := spanned
      have first : [stmt].Sublist (stmt :: olds) := List.sublist_append_left [stmt] olds
      have spannedFirst : Stmt.Spanned (none.toList ++ [] ++ [stmt]) := spanned.sublist first
      have gap := writesBlock_fillGap page container change spannedFirst filled
      rw [diffStmts_append_of_new page container new, List.nil_append, List.map_cons,
        ← List.nil_append (stmt :: olds),
        diffStmts_cons_of_kept page container whole (placed stmt), List.append_assoc]
      refine gap.append_right first.subset fun edit member => ?_
      rcases List.mem_append.1 member with inside | inRest
      · exact ⟨stmt, by simp, .inr inside⟩
      · have rest := spanned.sublist (List.sublist_cons_self stmt olds)
        exact (oldEdit_of_map page container placed rest inRest).mono (by simp)

end Kept

end Print

end TagLift
