import TagLift.Migration.Pipeline
import TagLift.Proofs.Migration.Edits
import TagLift.Proofs.Print.Preservation
import TagLift.Proofs.Tree.Literals

/-!
# Migrations can be printed

All edits of the migration of a well-formed tree are in bounds and keep apart, so they can be
applied, and every offset can be mapped through them. What is left to fail is normal layout: a
literal is protected with the length it had, and an edit inside it may make that length cut a
character. A migration whose edits stay out of the literals is printed.
-/

namespace TagLift

namespace Stmt

theorem exists_eq_migrated_of_mem_leaves_topMigrated {stmt leaf : Stmt}
    (member : leaf ∈ stmt.topMigrated.leaves) (notUse : leaf.isUse = false) :
    ∃ old ∈ stmt.leaves, leaf = old.migrated := by
  rcases stmt.nspace_or_plain with ⟨head, body, rfl⟩ | plain
  · exact (migratedFrom_bodyMigrated body).exists_eq_migrated member notUse
  · rw [topMigrated_of_not_isNamespace plain,
      leaves_of_not_isNamespace (by rw [isNamespace_migrated, plain]),
      List.mem_singleton] at member
    exact ⟨stmt, by simp [leaves_of_not_isNamespace plain], member⟩

end Stmt

namespace SourceUnit

/-- The statements of a migrated unit are imports or statements of the unit, migrated. -/
theorem exists_eq_migrated_of_mem_leaves {unit : SourceUnit} {leaf : Stmt}
    (member : leaf ∈ unit.migrateAndResolve.1.stmts.flatMap Stmt.leaves)
    (notUse : leaf.isUse = false) :
    ∃ old ∈ unit.stmts.flatMap Stmt.leaves, leaf = old.migrated := by
  have top : ∀ stmt ∈ unit.stmts, leaf ∈ stmt.topMigrated.leaves →
      ∃ old ∈ unit.stmts.flatMap Stmt.leaves, leaf = old.migrated := by
    intro stmt inUnit isLeaf
    obtain ⟨old, inside, same⟩ :=
      Stmt.exists_eq_migrated_of_mem_leaves_topMigrated isLeaf notUse
    exact ⟨old, List.mem_flatMap.2 ⟨stmt, inUnit, inside⟩, same⟩
  rcases namespace_cases unit.stmts with others | ⟨before, head, body, after, split, others⟩
  · rw [migrateAndResolve_of_no_nspace others] at member
    obtain ⟨stmt, inNew, isLeaf⟩ := List.mem_flatMap.1 member
    cases use : stmt.isUse with
    | true =>
        cases stmt with
        | uses =>
            rw [List.mem_singleton.1 isLeaf] at notUse
            cases notUse
        | nspace | classLike | enclosing | inclusion | declare | other => cases use
    | false =>
        obtain ⟨old, inUnit, rfl⟩ := ((Stmt.migratedFrom_map_migrated unit.stmts).getD_resolve?
          _ _).exists_eq_migrated inNew use
        rw [← Stmt.topMigrated_of_not_isNamespace (others old inUnit)] at isLeaf
        exact top old inUnit isLeaf
  · rw [migrateAndResolve_of_nspace split others, ← Stmt.map_topMigrated others] at member
    obtain ⟨stmt, inNew, isLeaf⟩ := List.mem_flatMap.1 member
    simp only [List.mem_append, List.mem_cons, List.mem_map] at inNew
    rcases inNew with ⟨old, inBefore, rfl⟩ | rfl | ⟨old, inAfter, rfl⟩
    · exact top old (by simp [split, inBefore]) isLeaf
    · obtain ⟨old, inBody, same⟩ := ((Stmt.migratedFrom_bodyMigrated body).getD_resolve?
        _ _).exists_eq_migrated isLeaf notUse
      exact ⟨old, List.mem_flatMap.2 ⟨.nspace head body, by simp [split], inBody⟩, same⟩
    · exact top old (by simp [split, inAfter]) isLeaf

end SourceUnit

namespace Print

theorem layoutStmts_eq_flatMap_leaves (page : Page) (stmts : List Stmt) :
    page.layoutStmts stmts = (stmts.flatMap Stmt.leaves).flatMap page.layoutStmt := by
  rw [layoutStmts_eq_flatMap, List.flatMap_assoc]
  refine List.flatMap_congr fun stmt _ => ?_
  rcases stmt.nspace_or_plain with ⟨head, body, rfl⟩ | plain
  · exact layoutStmts_eq_flatMap page body
  · rw [Stmt.leaves_of_not_isNamespace plain, List.flatMap_singleton]

theorem mem_layoutClass {page : Page} {decl : ClassDecl} {edit : Edit}
    (member : edit ∈ page.layoutClass decl.migrated) :
    ∃ inner ∈ decl.declarations, edit ∈ page.blankLineAfter inner.span.stop := by
  rcases List.mem_append.1 member with inMethods | after
  · simp only [ClassDecl.migrated, List.flatMap_map, List.mem_flatMap] at inMethods
    obtain ⟨method, inside, added⟩ := inMethods
    rw [method.grown_migratedMethod.span] at added
    exact ⟨method, List.mem_cons_of_mem _ inside, added⟩
  · rw [decl.grown_migrated.span] at after
    exact ⟨decl.decl, List.mem_cons_self, after⟩

/-- The blank lines of a migrated statement go behind its old declarations. -/
theorem mem_layoutStmt_migrated {page : Page} {stmt : Stmt} {edit : Edit}
    (plain : stmt.isNamespace = false) (member : edit ∈ page.layoutStmt stmt.migrated) :
    ∃ decl ∈ stmt.declarations, edit ∈ page.blankLineAfter decl.span.stop := by
  cases stmt with
  | nspace => cases plain
  | classLike decl =>
      obtain ⟨inner, inside, added⟩ := mem_layoutClass member
      exact ⟨inner, List.mem_flatMap.2 ⟨decl, List.mem_cons_self, inside⟩, added⟩
  | enclosing span classes =>
      obtain ⟨new, isNew, inside⟩ := List.mem_flatMap.1 member
      obtain ⟨decl, isClass, rfl⟩ := List.mem_map.1 isNew
      obtain ⟨inner, inside, added⟩ := mem_layoutClass inside
      exact ⟨inner, List.mem_flatMap.2 ⟨decl, isClass, inside⟩, added⟩
  | uses | inclusion | declare | other => cases member

section Unit

variable {page : Page} {root : Node} {unit : SourceUnit} {opening : Bool} {lo hi : Nat}
  (formed : root.WellFormed page.source)
  (lined : Stmt.Lined page.source root opening lo hi (unit.stmts.flatMap Stmt.leaves))

include lined

/-- The blank lines of a migrated unit go behind its old declarations. -/
theorem exists_blankLineAfter_of_mem_layoutStmts {edit : Edit}
    (member : edit ∈ page.layoutStmts unit.migrateAndResolve.1.stmts) :
    ∃ stmt ∈ unit.stmts.flatMap Stmt.leaves, ∃ decl ∈ stmt.declarations,
      edit ∈ page.blankLineAfter decl.span.stop := by
  rw [layoutStmts_eq_flatMap_leaves] at member
  obtain ⟨leaf, isLeaf, inside⟩ := List.mem_flatMap.1 member
  cases use : leaf.isUse with
  | true =>
      cases leaf with
      | uses => cases inside
      | nspace | classLike | enclosing | inclusion | declare | other => cases use
  | false =>
      obtain ⟨old, inUnit, rfl⟩ := SourceUnit.exists_eq_migrated_of_mem_leaves isLeaf use
      obtain ⟨span, stands, -⟩ := lined.exists_stands inUnit
      exact ⟨old, inUnit, mem_layoutStmt_migrated stands.plain inside⟩

include formed

/-- The layout edits of a migrated unit insert at clear offsets. -/
theorem clear_layoutStmts {drops : Stmt → Bool} {edit : Edit}
    (member : edit ∈ page.layoutStmts unit.migrateAndResolve.1.stmts) :
    edit.start = edit.stop ∧ Clear page.source (page.unitZones drops unit) edit.start := by
  obtain ⟨stmt, inUnit, decl, declared, added⟩ :=
    exists_blankLineAfter_of_mem_layoutStmts lined member
  exact clear_blankLineAfter formed lined inUnit declared added

/-- All edits of a migrated unit are in bounds and keep apart. -/
theorem valid_and_apart (distinct : unit.stmts.Pairwise fun a b => a.span? ≠ b.span?)
    (container : Container) :
    (∀ edit ∈ page.diffStmts container none unit.stmts [] unit.migrateAndResolve.1.stmts ++
        page.layoutStmts unit.migrateAndResolve.1.stmts, edit.inBounds page.source) ∧
      (page.diffStmts container none unit.stmts [] unit.migrateAndResolve.1.stmts ++
        page.layoutStmts unit.migrateAndResolve.1.stmts).Pairwise Edit.Apart := by
  obtain ⟨drops, fits⟩ := exists_fits_migrateAndResolve formed lined distinct container
  have layout : ∀ edit ∈ page.layoutStmts unit.migrateAndResolve.1.stmts,
      edit.start = edit.stop ∧ Clear page.source (page.unitZones drops unit) edit.start :=
    fun edit member => clear_layoutStmts formed lined member
  have zones : (page.unitZones drops unit).Pairwise fun a b => a.stop ≤ b.start :=
    pairwise_zones formed lined
  generalize page.diffStmts container none unit.stmts [] _ = structural at fits ⊢
  generalize page.layoutStmts _ = blanks at layout ⊢
  have point {edit : Edit} (empty : edit.start = edit.stop)
      (clear : Clear page.source (page.unitZones drops unit) edit.start) :
      edit.inBounds page.source :=
    Edit.inBounds_iff.2 ⟨Nat.le_of_eq empty, clear.1, empty ▸ clear.1⟩
  have cases : ∀ edit ∈ structural ++ blanks,
      edit.start = edit.stop ∧ Clear page.source (page.unitZones drops unit) edit.start ∨
        edit.start < edit.stop ∧ edit.inBounds page.source ∧
          ∃ zone ∈ page.unitZones drops unit, zone.start ≤ edit.start ∧ edit.stop ≤ zone.stop := by
    intro edit member
    rcases List.mem_append.1 member with inside | blank
    · exact fits.cases_of_mem inside
    · exact .inl (layout edit blank)
  have valid : ∀ edit ∈ structural ++ blanks, edit.inBounds page.source := by
    intro edit member
    rcases cases edit member with ⟨empty, clear⟩ | ⟨-, valid, -⟩
    · exact point empty clear
    · exact valid
  have ends : ∀ edit ∈ structural ++ blanks, edit.start ≤ edit.stop :=
    fun edit member => (Edit.inBounds_iff.1 (valid edit member)).1
  refine ⟨valid, Edit.pairwise_apart ends ?_ ?_⟩
  · have none : blanks.filter (fun edit => edit.start < edit.stop) = [] :=
      List.filter_eq_nil_iff.2 fun edit member => by simp [(layout edit member).1]
    rw [List.filter_append, none, List.append_nil]
    exact fits.pairwise_removals zones
  · intro edit member empty removal member' removes
    rcases cases edit member with ⟨-, clear⟩ | ⟨impossible, -⟩
    · rcases cases removal member' with ⟨impossible, -⟩ | ⟨-, -, zone, inZones, lower, upper⟩
      · omega
      · have aside := clear.2 zone inZones
        simp only [Edit.Apart]
        omega
    · omega

end Unit

end Print

namespace Node

/-- A literal has the span of a node. -/
theorem exists_span_eq_of_mem_literals {node : Node} {span : Span} (member : span ∈ node.literals) :
    ∃ inner ∈ node.nodes, inner.span = span := by
  obtain ⟨inner, inside, -, same⟩ := exists_literal_of_mem_literals member
  exact ⟨inner, inside, same⟩

end Node

namespace SourceUnit

/-- A literal that no edit reaches into is protected where it lies after the edits. -/
theorem uncut_shiftLiteral {source text : Text} {edits : List Edit} {span : Span}
    (valid : ∀ edit ∈ edits, edit.inBounds source) (apart : edits.Pairwise Edit.Apart)
    (applied : Edit.apply source edits = .ok text) (start : Text.isBoundary span.start source)
    (stop : Text.isBoundary span.stop source) (order : span.start ≤ span.stop)
    (clear : ∀ edit ∈ edits, edit.stop ≤ span.start ∨ span.stop ≤ edit.start) :
    Layout.Uncut text (shiftLiteral edits span) := by
  obtain ⟨front, back, applied', mapped⟩ :=
    Edit.exists_apply_eq_append valid apart start stop order clear
  obtain rfl : front ++ span.slice source ++ back = text :=
    Except.ok.inj (applied'.symm.trans applied)
  have size : (span.slice source).byteSize = span.stop - span.start :=
    Text.byteSize_slice start stop order
  simp only [Layout.Uncut, shiftLiteral, mapped, Option.getD_some, ← size]
  constructor
  · rw [List.append_assoc]
    exact Text.isBoundary_append _ _
  · rw [← Text.byteSize_append]
    exact Text.isBoundary_append _ _

end SourceUnit

theorem migrateTree_eq_map (source : Text) (root : Node) :
    migrateTree source root =
      (SourceUnit.print source (.ofTree source root)
        (SourceUnit.ofTree source root).migrateAndResolve.1).map fun printed =>
          ⟨printed, (SourceUnit.ofTree source root).migrateAndResolve.2.1,
            (SourceUnit.ofTree source root).migrateAndResolve.2.2⟩ :=
  rfl

/-- Once its edits apply, the migration of a tree succeeds unless it edits something and a literal,
protected with its old length, cuts a character of the edited text. -/
theorem migrateTree_of_apply_eq_ok {source text : Text} {root : Node} {old new : SourceUnit}
    {edits : List Edit} (lowered : SourceUnit.ofTree source root = old)
    (migrated : old.migrateAndResolve.1 = new)
    (all : edits = SourceUnit.structuralEdits source old new ++
      (Print.Page.ofSource source).layoutStmts new.stmts)
    (applied : Edit.apply source edits = .ok text) :
    if SourceUnit.structuralEdits source old new = [] ∨
        ∀ span ∈ Layout.clipAll text.byteSize 0
          (old.literals.map (SourceUnit.shiftLiteral edits)), Layout.Uncut text span
    then ∃ migrated, migrateTree source root = .ok migrated
    else migrateTree source root = .error .panic := by
  rw [migrateTree_eq_map, lowered, migrated, SourceUnit.print_of_apply_eq_ok all applied]
  by_cases nothing : SourceUnit.structuralEdits source old new = []
  · simp [nothing, Except.map]
  · rw [if_neg nothing]
    cases normal : Layout.normalize? (newlineOf source)
        (old.literals.map (SourceUnit.shiftLiteral edits)) text with
    | none =>
        have cut := Layout.isSome_normalize?_iff.not.1 (by rw [normal]; simp)
        rw [if_neg (by simp only [nothing, false_or]; exact cut)]
        rfl
    | some result =>
        have uncut := Layout.isSome_normalize?_iff.1 (by rw [normal]; rfl)
        rw [if_pos (.inr uncut)]
        exact ⟨_, rfl⟩

/-- The edits of the migration of a well-formed tree are in bounds and keep apart, every offset can
be mapped through them, and they can be applied. The migration succeeds exactly if it edits
nothing or no literal, protected with its old length, cuts a character of the edited text; there is
no other way to fail. It succeeds if no edit reaches into a literal. -/
theorem migrateTree_outcome_of_wellFormed {source : Text} {root : Node}
    (formed : root.WellFormed source) :
    let old := SourceUnit.ofTree source root
    let new := old.migrateAndResolve.1
    let structural := SourceUnit.structuralEdits source old new
    let edits := structural ++ (Print.Page.ofSource source).layoutStmts new.stmts
    (∀ edit ∈ edits, edit.inBounds source) ∧ edits.Pairwise Edit.Apart ∧
    (∀ position, (Edit.mapOffset? edits position).isSome) ∧
    ∃ text, Edit.apply source edits = .ok text ∧
      (if structural = [] ∨ ∀ span ∈ Layout.clipAll text.byteSize 0
          (old.literals.map (SourceUnit.shiftLiteral edits)), Layout.Uncut text span
        then ∃ migrated, migrateTree source root = .ok migrated
        else migrateTree source root = .error .panic) ∧
      ((∀ literal ∈ old.literals, ∀ edit ∈ edits,
          edit.stop ≤ literal.start ∨ literal.stop ≤ edit.start) →
        ∃ migrated, migrateTree source root = .ok migrated) := by
  intro old new structural edits
  have lined := SourceUnit.lined_ofTree formed
  have distinct := SourceUnit.pairwise_span?_ne_ofTree formed
  obtain ⟨valid, apart⟩ : (∀ edit ∈ edits, edit.inBounds source) ∧ edits.Pairwise Edit.Apart :=
    Print.valid_and_apart formed lined distinct ⟨old.headerEnd, [], false⟩
  obtain ⟨text, applied⟩ := Edit.exists_apply_eq_ok valid apart
  have outcome := migrateTree_of_apply_eq_ok rfl rfl rfl applied
  refine ⟨valid, apart, fun position => ?_, text, applied, outcome, fun clear => ?_⟩
  · rw [Edit.mapOffset?_eq_some valid apart]
    rfl
  · have uncut : ∀ span ∈ Layout.clipAll text.byteSize 0
        (old.literals.map (SourceUnit.shiftLiteral edits)), Layout.Uncut text span := by
      refine Layout.uncut_clipAll (Text.isBoundary_zero text) fun span member => ?_
      obtain ⟨literal, isLiteral, rfl⟩ := List.mem_map.1 member
      obtain ⟨node, inTree, rfl⟩ := Node.exists_span_eq_of_mem_literals isLiteral
      obtain ⟨start, stop, order⟩ := formed.bounds node inTree
      exact SourceUnit.uncut_shiftLiteral valid apart applied start stop order (clear _ isLiteral)
    rwa [if_pos (.inr uncut)] at outcome

/-- An import, a test method with a doc comment, and a literal: three edits, none in the literal. -/
theorem migrateTree_outcome_of_test_method :
    ∃ (source : Text) (root : Node), root.WellFormed source ∧ root.literals ≠ [] ∧
      (SourceUnit.structuralEdits source (.ofTree source root)
        (SourceUnit.ofTree source root).migrateAndResolve.1).length = 3 ∧
      ∃ migrated, migrateTree source root = .ok migrated := by
  let source := ("<?php\nuse A;\nclass B \x7b\n    /**\n     * @test\n     */\n".toList ++
    "    function t() \x7b\x7d\n\x7d\n$s = 'é';\n".toList)
  let method : Node :=
    ⟨.method, ⟨56, 71⟩, true, [⟨.other, ⟨56, 64⟩, false, []⟩, ⟨.name, ⟨65, 66⟩, true, []⟩]⟩
  let root : Node :=
    ⟨.other, ⟨0, 85⟩, true,
      [⟨.openTag, ⟨0, 5⟩, true, []⟩, ⟨.useDecl, ⟨6, 12⟩, true, []⟩,
        ⟨.classDecl, ⟨13, 73⟩, true,
          [⟨.other, ⟨13, 18⟩, false, []⟩, ⟨.name, ⟨19, 20⟩, true, []⟩,
            ⟨.members, ⟨21, 73⟩, true, [⟨.comment, ⟨27, 51⟩, true, []⟩, method]⟩]⟩,
        ⟨.other, ⟨74, 84⟩, true, [⟨.literal, ⟨79, 83⟩, true, []⟩]⟩]⟩
  have formed : root.WellFormed source := by decide +kernel
  obtain ⟨-, -, -, text, -, -, succeeds⟩ := migrateTree_outcome_of_wellFormed formed
  refine ⟨source, root, formed, by decide, by decide +kernel, succeeds ?_⟩
  decide +kernel

namespace ClassInLiteral

/-! A string calls a function with a class in it, and characters of two bytes stand behind the
call. -/

def source : Text :=
  "<?php\n$s = \"\x7b$f(function () \x7b class A \x7b /** @test */ function t() ".toList ++
    "\x7b\x7d \x7d \x7d)\x7déééé\";\n".toList

def mark (start stop : Nat) : Node :=
  ⟨.other, ⟨start, stop⟩, false, []⟩

def classNode : Node :=
  ⟨.classDecl, ⟨30, 70⟩, true,
    [mark 30 35, ⟨.name, ⟨36, 37⟩, true, []⟩,
      ⟨.members, ⟨38, 70⟩, true,
        [⟨.openBrace, ⟨38, 39⟩, false, []⟩, ⟨.comment, ⟨40, 52⟩, true, []⟩,
          ⟨.method, ⟨53, 68⟩, true,
            [mark 53 61, ⟨.name, ⟨62, 63⟩, true, []⟩,
              ⟨.other, ⟨63, 65⟩, true, [mark 63 64, mark 64 65]⟩,
              ⟨.block, ⟨66, 68⟩, true, [⟨.openBrace, ⟨66, 67⟩, false, []⟩, mark 67 68]⟩]⟩,
          mark 69 70]⟩]⟩

/-- The call of the function. -/
def callNode : Node :=
  ⟨.other, ⟨13, 73⟩, true,
    [⟨.other, ⟨13, 15⟩, true, [mark 13 14, ⟨.name, ⟨14, 15⟩, true, []⟩]⟩,
      ⟨.arguments, ⟨15, 73⟩, true,
        [mark 15 16,
          ⟨.argument, ⟨16, 72⟩, true,
            [⟨.other, ⟨16, 72⟩, true,
              [mark 16 24, ⟨.other, ⟨25, 27⟩, true, [mark 25 26, mark 26 27]⟩,
                ⟨.block, ⟨28, 72⟩, true,
                  [⟨.openBrace, ⟨28, 29⟩, false, []⟩, classNode, mark 71 72]⟩]⟩]⟩,
          mark 72 73]⟩]⟩

def root : Node :=
  ⟨.other, ⟨0, 85⟩, true,
    [⟨.openTag, ⟨0, 5⟩, true, []⟩,
      ⟨.exprStmt, ⟨6, 84⟩, true,
        [⟨.other, ⟨6, 83⟩, true,
          [⟨.other, ⟨6, 8⟩, true, [mark 6 7, ⟨.name, ⟨7, 8⟩, true, []⟩]⟩, mark 9 10,
            ⟨.literal, ⟨11, 83⟩, true,
              [mark 11 12, ⟨.openBrace, ⟨12, 13⟩, false, []⟩, callNode, mark 73 74,
                ⟨.other, ⟨74, 82⟩, true, []⟩, mark 82 83]⟩]⟩,
          mark 83 84]⟩]⟩

/-- The class gets an attribute inside the literal, and the old length of the literal ends in the
middle of a character. -/
theorem migrateTree_panics : migrateTree source root = .error .panic := by
  let edits : List Edit :=
    [.insert 6 "use PHPUnit\\Framework\\Attributes\\Test;\n\n".toList,
      .insert 53 "#[Test]\n".toList]
  have all : edits = SourceUnit.structuralEdits source (.ofTree source root)
      (SourceUnit.ofTree source root).migrateAndResolve.1 ++
        (Print.Page.ofSource source).layoutStmts
          (SourceUnit.ofTree source root).migrateAndResolve.1.stmts := by decide +kernel
  have applied : Edit.apply source edits = .ok (Edit.sweep 0 source edits) :=
    Edit.apply_of_pairwise (by decide) (by decide +kernel)
  have edited : SourceUnit.structuralEdits source (.ofTree source root)
      (SourceUnit.ofTree source root).migrateAndResolve.1 ≠ [] := by decide +kernel
  have cut : ¬ ∀ span ∈ Layout.clipAll (Edit.sweep 0 source edits).byteSize 0
      ((SourceUnit.ofTree source root).literals.map (SourceUnit.shiftLiteral edits)),
        Layout.Uncut (Edit.sweep 0 source edits) span := by
    decide +kernel
  -- From here on nothing is computed.
  clear_value edits
  have outcome := migrateTree_of_apply_eq_ok rfl rfl all applied
  rwa [if_neg (not_or.2 ⟨edited, cut⟩)] at outcome

end ClassInLiteral

/-- A well-formed tree whose migration panics. -/
theorem class_in_literal_not_printed :
    ∃ (source : Text) (root : Node), root.WellFormed source ∧
      migrateTree source root = .error .panic :=
  ⟨ClassInLiteral.source, ClassInLiteral.root, by decide +kernel,
    ClassInLiteral.migrateTree_panics⟩

end TagLift
