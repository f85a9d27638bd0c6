import TagLift.Proofs.Layout.Normalize
import TagLift.Proofs.Migration.EditForms
import TagLift.Proofs.Print.Steps

/-!
# Where imports are written

New imports are written at one offset of each scope that gets some, and that offset depends on the
statements of the scope alone. It lies behind the opening tag if the scope has no statement in
front of the tag. Inline text in front of the tag is such a statement, and in a file without
namespaces it takes the imports in front of the tag as well.
-/

namespace TagLift

/-! ## Texts that start with an import -/

namespace Text

/-- Whether a text starts with an import, but for white space. -/
def startsImport (text : Text) : Bool :=
  "use ".toList.isPrefixOf (trimStart text)

theorem startsImport_append {blank : Text} (allBlank : blank.isAllBlank) (text : Text) :
    startsImport (blank ++ text) = startsImport text := by
  rw [startsImport, trimStart, List.dropWhile_append_of_pos (List.all_eq_true.1 allBlank)]
  rfl

theorem startsImport_of_head? {text : Text} {c : Char} (starts : text.head? = some c)
    (solid : isBlank c = false) (other : c ≠ 'u') : startsImport text = false := by
  obtain ⟨rest, rfl⟩ := List.head?_eq_some_iff.1 starts
  have differs : ('u' == c) = false := by simpa using other.symm
  simp [startsImport, trimStart, solid, List.isPrefixOf, differs]

end Text

theorem Import.startsImport_render (decl : Import) (rest : Text) :
    (decl.render ++ rest).startsImport :=
  rfl

theorem AttributeGroup.startsImport_render (group : AttributeGroup) (rest : Text) :
    (group.render ++ rest).startsImport = false :=
  Text.startsImport_of_head? rfl (by decide) (by decide)

/-! ## Edits that write imports -/

/-- Whether an edit writes imports. -/
def Edit.writesImport (edit : Edit) : Bool :=
  edit.text.startsImport

namespace Print

variable {page : Page} (blank : page.newline.isAllBlank) {edit : Edit}

include blank

theorem writesImport_of_gapEdit {olds block : List Stmt} {stmt : Stmt} {span : Span}
    (imports : Stmt.NewImports olds block) (fills : page.GapEdit block stmt span edit) :
    edit.writesImport := by
  obtain ⟨first, rest, rfl⟩ := List.exists_cons_of_ne_nil imports.filled
  obtain ⟨decl, -, rfl⟩ := imports.each first (by simp)
  cases fills with
  | after =>
      rw [Edit.writesImport, Edit.insert, Page.renderAfter, List.append_assoc,
        Text.startsImport_append (Page.isAllBlank_separator blank (isAllBlank_lineIndent _ _) _ _),
        renderStmt_ofImport]
      exact decl.startsImport_render _
  | before =>
      rw [Edit.writesImport, Edit.insert, Page.renderBefore, List.append_assoc,
        renderStmt_ofImport]
      exact decl.startsImport_render _
  | instead =>
      rw [Edit.writesImport, Page.renderBlock, renderStmt_ofImport]
      exact decl.startsImport_render _

theorem writesImport_of_declEdit {source : Text} {root : Node} {asked : List Directive}
    {decl : Declaration} (read : decl.ReadFrom source root)
    (ofDecl : page.DeclEdit asked decl edit) : edit.writesImport = false := by
  cases ofDecl with
  | @doc kinds comment span documents atDoc =>
      have opens : comment.text.head? = some '/' := by
        have isDoc := (read.doc comment documents).isDoc
        rw [isDocComment, Bool.and_eq_true] at isDoc
        obtain ⟨rest, equal⟩ := List.isPrefixOf_iff_prefix.1 isDoc.1
        rw [← equal]
        rfl
      refine Text.startsImport_of_head? ?_ (by decide) (by decide : '/' ≠ 'u')
      rw [head?_stripDirectives, opens]
  | @behind group span added filled =>
      obtain ⟨first, rest, rfl⟩ := List.exists_cons_of_ne_nil filled
      rw [Edit.writesImport, Edit.insert, List.map_cons, List.flatMap_cons, List.append_assoc,
        Text.startsImport_append (by simp [blank, isAllBlank_lineIndent])]
      exact first.startsImport_render _
  | @front added filled =>
      obtain ⟨first, rest, rfl⟩ := List.exists_cons_of_ne_nil filled
      rw [Edit.writesImport, Edit.insert, List.map_cons, List.flatMap_cons, List.append_assoc,
        List.append_assoc]
      exact first.startsImport_render _

end Print

/-! ## Places of imports -/

namespace SourceUnit

section OfTree

variable {source : Text} {root : Node} (formed : root.WellFormed source)

include formed

/-- An edit that writes imports writes those of a scope. -/
theorem exists_importEdit_of_writesImport {edit : Edit}
    (member : edit ∈ structuralEdits source (ofTree source root)
      (ofTree source root).migrateAndResolve.1) (writes : edit.writesImport) :
    ∃ scope ∈ (ofTree source root).grownScopes (ofTree source root).migrateAndResolve.1,
      (ofTree source root).ImportEdit source scope edit := by
  cases migrationEdit_of_mem_structuralEdits formed member with
  | delete => cases writes
  | declared isOld isClass declares ofDecl =>
      have read := readFrom_leaves_ofTree source root _ isOld
      have blank := isAllBlank_newlineOf source
      rw [Print.writesImport_of_declEdit blank (read.of_mem_classes _ isClass _ declares) ofDecl]
        at writes
      cases writes
  | imports grown writes => exact ⟨_, grown, writes⟩

/-- Imports are written at the places of the scopes that get some, and nowhere else. -/
theorem mem_importPlaces_iff {position : Nat} :
    position ∈ (ofTree source root).importPlaces (ofTree source root).migrateAndResolve.1 ↔
      ∃ edit ∈ structuralEdits source (ofTree source root)
        (ofTree source root).migrateAndResolve.1, edit.writesImport ∧ edit.start = position := by
  rw [importPlaces, List.mem_filterMap]
  constructor
  · rintro ⟨scope, grown, place⟩
    obtain ⟨edit, member, writes⟩ := exists_importEdit formed grown
    obtain ⟨block, new, stmt, -, span, -, fills⟩ := writes.fills
    refine ⟨edit, member, ?_, Option.some.inj (writes.place.symm.trans place)⟩
    exact Print.writesImport_of_gapEdit (isAllBlank_newlineOf source) new fills
  · rintro ⟨edit, member, writes, rfl⟩
    obtain ⟨scope, grown, writes⟩ := exists_importEdit_of_writesImport formed member writes
    exact ⟨scope, grown, writes.place⟩

/-- An edit that writes imports starts no earlier than some statement does. -/
theorem exists_start_le_of_writesImport {edit : Edit}
    (member : edit ∈ structuralEdits source (ofTree source root)
      (ofTree source root).migrateAndResolve.1) (writes : edit.writesImport) :
    ∃ stmt ∈ (ofTree source root).stmts.flatMap Stmt.leaves, ∃ span,
      stmt.span? = some span ∧ span.start ≤ edit.start := by
  obtain ⟨scope, grown, writes⟩ := exists_importEdit_of_writesImport formed member writes
  obtain ⟨block, new, stmt, isOld, span, spanned, fills⟩ := writes.fills
  have isLeaf := (sublist_leaves_of_mem_scopes (mem_scopes_of_mem_grownScopes grown)).subset isOld
  obtain ⟨span', stands, -⟩ := (lined_ofTree formed).exists_stands isLeaf
  obtain rfl : span' = span := Option.some.inj (stands.spanned.symm.trans spanned)
  refine ⟨stmt, isLeaf, span', spanned, ?_⟩
  cases fills with
  | after => exact stands.order
  | before | instead => exact Nat.le_refl _

end OfTree

/-- All new imports of a migrated file are written behind its opening tag exactly if the places of
the scopes that get some lie there, and so they do if no statement starts in front of the end of
the tag. -/
theorem imports_behind_header_iff {source : Text} {root : Node} (formed : root.WellFormed source) :
    let old := ofTree source root
    let new := old.migrateAndResolve.1
    ((∀ edit ∈ structuralEdits source old new, edit.writesImport → old.headerEnd ≤ edit.start) ↔
        ∀ place ∈ old.importPlaces new, old.headerEnd ≤ place) ∧
      ((∀ stmt ∈ old.stmts.flatMap Stmt.leaves, ∀ span ∈ stmt.span?, old.headerEnd ≤ span.start) →
        ∀ edit ∈ structuralEdits source old new, edit.writesImport →
          old.headerEnd ≤ edit.start) := by
  intro old new
  constructor
  · constructor
    · intro behind place isPlace
      obtain ⟨edit, member, writes, rfl⟩ := (mem_importPlaces_iff formed).1 isPlace
      exact behind edit member writes
    · intro behind edit member writes
      exact behind edit.start ((mem_importPlaces_iff formed).2 ⟨edit, member, writes, rfl⟩)
  · intro starts edit member writes
    obtain ⟨stmt, isOld, span, spanned, after⟩ :=
      exists_start_le_of_writesImport formed member writes
    exact Nat.le_trans (starts stmt isOld span spanned) after

/-- Imports go behind a leading `declare` statement, and so behind the tag. -/
theorem imports_behind_header_of_declare :
    ∃ (source : Text) (root : Node), root.WellFormed source ∧
      (ofTree source root).importPlaces (ofTree source root).migrateAndResolve.1 = [30] ∧
      (ofTree source root).headerEnd = 5 ∧
      ∀ edit ∈ structuralEdits source (ofTree source root)
        (ofTree source root).migrateAndResolve.1, edit.writesImport → 5 ≤ edit.start := by
  let source := "<?php\ndeclare(strict_types=1);\nclass B \x7b\n    /**\n     * @test\n".toList ++
    "     */\n    function t() \x7b\x7d\n\x7d\n".toList
  let root : Node :=
    ⟨.other, ⟨0, 92⟩, true,
      [⟨.openTag, ⟨0, 5⟩, true, []⟩, ⟨.declareStmt, ⟨6, 30⟩, true, []⟩,
        ⟨.classDecl, ⟨31, 91⟩, true,
          [⟨.members, ⟨39, 91⟩, true,
            [⟨.comment, ⟨45, 69⟩, true, []⟩, ⟨.method, ⟨74, 89⟩, true, []⟩]⟩]⟩]⟩
  have formed : root.WellFormed source := by decide +kernel
  have places : (ofTree source root).importPlaces (ofTree source root).migrateAndResolve.1 =
      [30] := by
    decide +kernel
  have behind := (imports_behind_header_iff formed).1.2
  rw [places] at behind
  exact ⟨source, root, formed, places, rfl, behind (by decide)⟩

/-- A line in front of the opening tag is a statement, and the imports go in front of it. -/
theorem import_in_front_of_header :
    ∃ (source : Text) (root : Node), root.WellFormed source ∧
      ∃ edit ∈ structuralEdits source (ofTree source root)
        (ofTree source root).migrateAndResolve.1,
        edit.writesImport ∧ edit.start < (ofTree source root).headerEnd := by
  let source := "#!/usr/bin/env php\n<?php\n\nclass FooTest\n\x7b\n    /**\n".toList ++
    "     * @test\n     */\n    public function a() \x7b\x7d\n\x7d\n".toList
  let root : Node :=
    ⟨.other, ⟨0, 100⟩, true,
      [⟨.literal, ⟨0, 19⟩, true, []⟩, ⟨.openTag, ⟨19, 24⟩, true, []⟩,
        ⟨.classDecl, ⟨26, 99⟩, true,
          [⟨.members, ⟨40, 99⟩, true,
            [⟨.comment, ⟨46, 70⟩, true, []⟩, ⟨.method, ⟨75, 97⟩, true, []⟩]⟩]⟩]⟩
  exact ⟨source, root, by decide +kernel, by decide +kernel⟩

end SourceUnit

end TagLift
