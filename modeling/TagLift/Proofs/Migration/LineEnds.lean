import TagLift.Proofs.Doc.LineEnds
import TagLift.Proofs.Import.LineEnds
import TagLift.Proofs.Layout.Pairs
import TagLift.Proofs.Migration.EditForms
import TagLift.Proofs.Migration.Printable

/-!
# Line ends of a migrated file

A file with paired line ends gets paired line ends only. Every text that an edit writes is paired:
separators, imports, attribute groups and stripped doc comments. Every edit stops at the end of a
node, in front of one, behind a line or at the end of the source, so no line feed loses the
carriage return in front of it.
-/

namespace TagLift

/-- No node of a tree starts or stops between a carriage return and its line feed. -/
def Node.KeepsLineEnds (source : Text) (root : Node) : Prop :=
  ∀ node ∈ root.nodes, ¬ Text.SplitsLineEnd node.span.start source ∧
    ¬ Text.SplitsLineEnd node.span.stop source

instance (source : Text) (root : Node) : Decidable (root.KeepsLineEnds source) :=
  inferInstanceAs (Decidable (∀ _ ∈ _, _))

/-! ## Where edits stop -/

namespace Text

variable {source : Text} {position : Nat}

theorem dropBytes_behind_line (boundary : isBoundary position source) {line rest : Text}
    (split : dropBytes position source = line ++ '\n' :: rest) :
    dropBytes (position + line.byteSize + 1) source = rest := by
  rw [Nat.add_assoc, ← dropBytes_dropBytes boundary, split, dropBytes_add_append]
  exact dropBytes_zero rest

/-- No line feed stands at the start of a line. -/
theorem Paired.head?_behind_line (paired : source.Paired) (boundary : isBoundary position source)
    {line rest : Text} (split : dropBytes position source = line ++ '\n' :: rest) :
    (dropBytes (position + line.byteSize + 1) source).head? ≠ some '\n' := by
  rw [dropBytes_behind_line boundary split]
  have whole : takeBytes position source ++ line ++ '\n' :: rest = source := by
    rw [List.append_assoc, ← split, takeBytes_append_dropBytes]
  rw [← whole] at paired
  exact paired.head?_ne_of_newline

end Text

namespace Print

variable {page : Page} (paired : page.source.Paired)

include paired

theorem head?_behind_lineSpan {span : Span} (boundary : Text.isBoundary span.stop page.source)
    (behind : (Text.dropBytes span.stop page.source).head? ≠ some '\n') :
    (Text.dropBytes (page.lineSpan span).stop page.source).head? ≠ some '\n' := by
  simp only [Page.lineSpan]
  split
  · rcases Text.firstLine_cases (Text.dropBytes span.stop page.source) with last | ⟨rest, split⟩
    · have atEnd := Text.dropBytes_append (Text.dropBytes span.stop page.source) []
      rw [List.append_nil] at atEnd
      rw [last, if_neg (Nat.lt_irrefl _), Nat.add_zero, ← Text.dropBytes_dropBytes boundary, atEnd]
      simp
    · have shorter := congrArg List.length split
      rw [List.length_append, List.length_cons] at shorter
      rw [if_pos (by omega)]
      exact paired.head?_behind_line boundary split
  · exact behind

theorem keepsPairs_of_mem_blankLineAfter {position : Nat} {edit : Edit}
    (boundary : Text.isBoundary position page.source) (newline : page.newline.Paired)
    (member : edit ∈ page.blankLineAfter position) : edit.KeepsPairs page.source := by
  simp only [Page.blankLineAfter] at member
  split at member
  · cases member
  next feed nextLines rest =>
    split at member
    · cases member
    · rw [List.mem_singleton.1 member]
      refine ⟨newline, ?_⟩
      rcases Text.firstLine_cases (Text.dropBytes position page.source) with last | ⟨_, split⟩
      · rw [last, List.drop_length] at rest
        cases rest
      · exact paired.head?_behind_line boundary split

end Print

/-! ## What edits write -/

theorem paired_lineIndent (source : Text) (position : Nat) :
    (lineIndent source position).Paired := by
  apply Text.Paired.of_notMem
  intro feed
  rcases eq_of_mem_lineIndent feed with equal | equal <;> cases equal

namespace Print

variable {page : Page} (newline : page.newline.Paired)

include newline

theorem paired_separator (position : Nat) (before after : Stmt) :
    (page.separator (lineIndent page.source position) before after).Paired := by
  have indent := paired_lineIndent page.source position
  rw [Page.separator]
  split
  · exact newline.append indent
  · exact (newline.append newline).append indent

theorem paired_renderAfter (position : Nat) {block : List Stmt}
    (each : ∀ stmt ∈ block, (page.renderStmt stmt).Paired) (before : Stmt) :
    (page.renderAfter (lineIndent page.source position) before block).Paired := by
  induction block generalizing before with
  | nil => exact Text.Paired.nil
  | cons stmt block ih =>
      obtain ⟨here, later⟩ := List.forall_mem_cons.1 each
      exact ((paired_separator newline position before stmt).append here).append (ih later stmt)

theorem paired_renderBefore (position : Nat) {block : List Stmt}
    (each : ∀ stmt ∈ block, (page.renderStmt stmt).Paired) (next : Stmt) :
    (page.renderBefore (lineIndent page.source position) next block).Paired := by
  induction block with
  | nil => exact Text.Paired.nil
  | cons stmt block ih =>
      obtain ⟨here, later⟩ := List.forall_mem_cons.1 each
      exact (here.append (paired_separator newline position stmt _)).append (ih later)

theorem paired_renderBlock (position : Nat) {block : List Stmt}
    (each : ∀ stmt ∈ block, (page.renderStmt stmt).Paired) :
    (page.renderBlock (lineIndent page.source position) block).Paired := by
  cases block with
  | nil => exact Text.Paired.nil
  | cons stmt block =>
      obtain ⟨here, later⟩ := List.forall_mem_cons.1 each
      exact here.append (paired_renderAfter newline position later stmt)

/-- A block of paired statements is written paired. -/
theorem keepsPairs_of_gapEdit {block : List Stmt} {stmt : Stmt} {span : Span} {edit : Edit}
    (each : ∀ stmt ∈ block, (page.renderStmt stmt).Paired)
    (start : (Text.dropBytes span.start page.source).head? ≠ some '\n')
    (stop : (Text.dropBytes span.stop page.source).head? ≠ some '\n')
    (fills : page.GapEdit block stmt span edit) : edit.KeepsPairs page.source := by
  cases fills with
  | after => exact ⟨paired_renderAfter newline _ each stmt, stop⟩
  | before => exact ⟨paired_renderBefore newline _ each stmt, start⟩
  | instead => exact ⟨paired_renderBlock newline _ each, stop⟩

end Print

/-! ## The edits of a migration -/

section Tree

variable {source : Text} {root : Node} (formed : root.WellFormed source) (paired : source.Paired)
  (whole : root.KeepsLineEnds source)

section Nodes

include paired whole

theorem Node.head?_start_ne {node : Node} (inTree : node ∈ root.nodes) :
    (Text.dropBytes node.span.start source).head? ≠ some '\n' :=
  paired.head?_dropBytes_ne (whole node inTree).1

theorem Node.head?_stop_ne {node : Node} (inTree : node ∈ root.nodes) :
    (Text.dropBytes node.span.stop source).head? ≠ some '\n' :=
  paired.head?_dropBytes_ne (whole node inTree).2

theorem Node.paired_text {node : Node} (inTree : node ∈ root.nodes) : (node.text source).Paired :=
  paired.slice (head?_start_ne paired whole inTree)

/-- The imports of a statement of the tree are written paired. -/
theorem Stmt.ReadFrom.namesPaired {stmt : Stmt} (read : stmt.ReadFrom source root) :
    ∀ decl ∈ stmt.imports, decl.NamesPaired := by
  cases read with
  | uses inTree => exact Import.namesPaired_ofDeclaration (Node.paired_text paired whole inTree)
  | nspace | classLike | enclosing | inclusion | declare | other => simp [Stmt.imports]

theorem paired_renderStmt_of_newImports {olds block : List Stmt} (page : Print.Page)
    (read : ∀ stmt ∈ olds, stmt.ReadFrom source root) (new : Stmt.NewImports olds block) :
    ∀ stmt ∈ block, (page.renderStmt stmt).Paired := by
  intro stmt member
  obtain ⟨decl, may, rfl⟩ := new.each stmt member
  rw [Print.renderStmt_ofImport]
  rcases may with present | ⟨directive, rfl⟩
  · obtain ⟨old, isOld, inside⟩ := List.mem_flatMap.1 present
    exact ((read old isOld).namesPaired paired whole decl inside).render
  · exact (Import.namesPaired_ofClass directive).render

theorem keepsPairs_of_declEdit {page : Print.Page} (newline : page.newline.Paired)
    {decl : ClassDecl} {inner : Declaration} {lo hi : Nat} (read : inner.ReadFrom source root)
    (stands : inner.Stands source root lo hi) {edit : Edit}
    (ofDecl : page.DeclEdit decl.directives inner edit) : edit.KeepsPairs source := by
  have indent := paired_lineIndent page.source inner.span.start
  have inline {added : List AttributeGroup} (new : NewGroups decl.directives added) :
      ∀ text ∈ added.map AttributeGroup.render, Text.Paired text := by
    intro text written
    obtain ⟨group, isNew, rfl⟩ := List.mem_map.1 written
    obtain ⟨directive, asked, rfl⟩ := new group isNew
    exact .of_notMem (ClassDecl.inline_of_mem_directives asked).newline_notMem_render
  cases ofDecl with
  | @doc kinds doc span documents atDoc =>
      obtain ⟨comment, inTree, -, rfl⟩ := (read.doc doc documents).node
      obtain rfl := Option.some.inj atDoc
      exact ⟨paired_stripDirectives kinds (Node.paired_text paired whole inTree),
        Node.head?_stop_ne paired whole inTree⟩
  | @behind group span added filled new isOld atGroup =>
      obtain ⟨node, inTree, spanned, -⟩ := stands.groups group isOld
      obtain rfl : node.span = span := Option.some.inj (spanned.symm.trans atGroup)
      exact ⟨.flatMap fun text written => (newline.append indent).append (inline new text written),
        Node.head?_stop_ne paired whole inTree⟩
  | @front added filled new =>
      obtain ⟨node, inTree, anchor, -⟩ := stands.anchor
      refine ⟨.flatMap fun text written => ((inline new text written).append newline).append indent,
        ?_⟩
      change (Text.dropBytes inner.attributeAnchor source).head? ≠ some '\n'
      rw [anchor]
      exact Node.head?_start_ne paired whole inTree

theorem Stmt.Stands.head?_start_ne {stmt : Stmt} {span : Span}
    (stands : stmt.Stands source root span) :
    (Text.dropBytes span.start source).head? ≠ some '\n' := by
  obtain ⟨node, inTree, equal⟩ := stands.starts
  rw [← equal]
  exact Node.head?_start_ne paired whole inTree

theorem Stmt.Stands.head?_stop_ne {stmt : Stmt} {span : Span}
    (stands : stmt.Stands source root span) :
    (Text.dropBytes span.stop source).head? ≠ some '\n' := by
  obtain ⟨node, inTree, equal⟩ := stands.stops
  rw [← equal]
  exact Node.head?_stop_ne paired whole inTree

end Nodes

include formed paired whole

namespace SourceUnit

/-- Every structural edit of a migration keeps the line ends paired. -/
theorem keepsPairs_of_migrationEdit (newline : (newlineOf source).Paired) {edit : Edit}
    (ofUnit : (ofTree source root).MigrationEdit source edit) : edit.KeepsPairs source := by
  have lined := lined_ofTree formed
  have read := readFrom_leaves_ofTree source root
  cases ofUnit with
  | @delete stmt span isOld spanned =>
      obtain ⟨span', stands, -⟩ := lined.exists_stands isOld
      obtain rfl : span' = span := Option.some.inj (stands.spanned.symm.trans spanned)
      exact ⟨.nil, Print.head?_behind_lineSpan paired (stands.boundary_stop formed)
        (stands.head?_stop_ne paired whole)⟩
  | @declared stmt decl inner _ isOld isClass declares ofDecl =>
      obtain ⟨span, stands, -⟩ := lined.exists_stands isOld
      have inStmt : inner ∈ stmt.declarations := List.mem_flatMap.2 ⟨decl, isClass, declares⟩
      exact keepsPairs_of_declEdit paired whole newline
        ((read stmt isOld).of_mem_classes decl isClass inner declares)
        (stands.placed.each inner inStmt) ofDecl
  | @imports scope _ grown writes =>
      obtain ⟨block, new, stmt, isOld, span, spanned, fills⟩ := writes.fills
      have part := sublist_leaves_of_mem_scopes (mem_scopes_of_mem_grownScopes grown)
      obtain ⟨span', stands, -⟩ := lined.exists_stands (part.subset isOld)
      obtain rfl : span' = span := Option.some.inj (stands.spanned.symm.trans spanned)
      exact Print.keepsPairs_of_gapEdit newline
        (paired_renderStmt_of_newImports paired whole _
          (fun stmt inScope => read stmt (part.subset inScope)) new)
        (stands.head?_start_ne paired whole) (stands.head?_stop_ne paired whole) fills

omit whole in
/-- So does every edit that puts in a blank line. -/
theorem keepsPairs_of_mem_layoutStmts (newline : (newlineOf source).Paired) {edit : Edit}
    (member : edit ∈ (Print.Page.ofSource source).layoutStmts
      (ofTree source root).migrateAndResolve.1.stmts) : edit.KeepsPairs source := by
  have lined := lined_ofTree formed
  obtain ⟨stmt, isOld, decl, declared, added⟩ :=
    Print.exists_blankLineAfter_of_mem_layoutStmts lined member
  obtain ⟨span, stands, -⟩ := lined.exists_stands isOld
  obtain ⟨node, inTree, spanned⟩ := (stands.placed.each decl declared).node
  have boundary : Text.isBoundary decl.span.stop source := by
    rw [spanned]
    exact (formed.bounds node inTree).2.1
  exact Print.keepsPairs_of_mem_blankLineAfter paired boundary newline added

/-- A unit read off a paired source is printed paired. -/
theorem paired_print (ending : newlineOf source = ['\r', '\n']) {printed : Printed}
    (done : print source (ofTree source root) (ofTree source root).migrateAndResolve.1 =
      .ok printed) : printed.text.Paired := by
  have newline : (newlineOf source).Paired := by
    rw [ending]
    decide
  rcases print_eq_ok_cases done with ⟨-, same⟩ | ⟨text, literals, applied, normalized⟩
  · rw [same]
    exact paired
  · have edited : text.Paired := by
      refine Edit.paired_apply paired (fun edit member => ?_) applied
      rcases List.mem_append.1 member with structural | layout
      · exact keepsPairs_of_migrationEdit formed paired whole newline
          (migrationEdit_of_mem_structuralEdits formed structural)
      · exact keepsPairs_of_mem_layoutStmts formed paired newline layout
    rw [ending] at normalized
    exact Layout.paired_normalize? edited normalized

end SourceUnit

end Tree

/-- A file in which a carriage return stands in front of every line feed, and which has one, is
migrated to such a file, if its tree cuts no such pair in two. -/
theorem migrateTree_keeps_line_ends {source : Text} {root : Node} (formed : root.WellFormed source)
    (whole : root.KeepsLineEnds source) (uses : Text.hasPart ['\r', '\n'] source)
    (paired : source.Paired) {migrated : Migrated}
    (done : migrateTree source root = .ok migrated) : migrated.printed.text.Paired := by
  rw [migrateTree_eq_map] at done
  cases print : SourceUnit.print source (.ofTree source root)
      (SourceUnit.ofTree source root).migrateAndResolve.1 with
  | error error =>
      rw [print] at done
      cases done
  | ok printed =>
      rw [print] at done
      obtain rfl := Except.ok.inj done
      exact SourceUnit.paired_print formed paired whole (if_pos uses) print

/-- A new import, a doc comment that loses a line and a new attribute in a file with paired line
ends. -/
theorem migrateTree_keeps_line_ends_of_test :
    ∃ (source : Text) (root : Node), root.WellFormed source ∧ root.KeepsLineEnds source ∧
      Text.hasPart ['\r', '\n'] source ∧ source.Paired ∧
      (SourceUnit.structuralEdits source (.ofTree source root)
        (SourceUnit.ofTree source root).migrateAndResolve.1).length = 3 ∧
      ∃ migrated, migrateTree source root = .ok migrated ∧ migrated.printed.text.Paired := by
  let source : Text := "<?php\r\nuse B;\r\nclass A \x7b\r\n    /**\r\n".toList ++
    "     * @test\r\n     */\r\n    function t() \x7b\x7d\r\n\x7d\r\n".toList
  let root : Node :=
    ⟨.other, ⟨0, 82⟩, true,
      [⟨.openTag, ⟨0, 5⟩, true, []⟩, ⟨.useDecl, ⟨7, 13⟩, true, []⟩,
        ⟨.classDecl, ⟨15, 80⟩, true,
          [⟨.members, ⟨23, 80⟩, true,
            [⟨.comment, ⟨30, 56⟩, true, []⟩, ⟨.method, ⟨62, 77⟩, true, []⟩]⟩]⟩]⟩
  let edits := SourceUnit.structuralEdits source (.ofTree source root)
    (SourceUnit.ofTree source root).migrateAndResolve.1 ++ (Print.Page.ofSource source).layoutStmts
      (SourceUnit.ofTree source root).migrateAndResolve.1.stmts
  have formed : root.WellFormed source := by decide +kernel
  have whole : root.KeepsLineEnds source := by decide +kernel
  have uses : Text.hasPart ['\r', '\n'] source := by decide +kernel
  have paired : source.Paired := by decide +kernel
  have three : (SourceUnit.structuralEdits source (.ofTree source root)
      (SourceUnit.ofTree source root).migrateAndResolve.1).length = 3 := by decide +kernel
  have applied : Edit.apply source edits = .ok (Edit.sweep 0 source edits) :=
    Edit.apply_of_pairwise (by decide +kernel) (by decide +kernel)
  have noLiteral : (SourceUnit.ofTree source root).literals = [] := by decide +kernel
  have all : edits = SourceUnit.structuralEdits source (.ofTree source root)
      (SourceUnit.ofTree source root).migrateAndResolve.1 ++
        (Print.Page.ofSource source).layoutStmts
          (SourceUnit.ofTree source root).migrateAndResolve.1.stmts := rfl
  -- From here on nothing is computed.
  clear_value source root edits
  have outcome := migrateTree_of_apply_eq_ok rfl rfl all applied
  rw [if_pos (.inr (by simp [noLiteral, Layout.clipAll]))] at outcome
  obtain ⟨migrated, done⟩ := outcome
  exact ⟨source, root, formed, whole, uses, paired, three, migrated, done,
    migrateTree_keeps_line_ends formed whole uses paired done⟩

end TagLift
