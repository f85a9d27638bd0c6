import TagLift.Proofs.Migration.Rewritten
import TagLift.Proofs.Tree.ReadFrom

/-!
# The forms of a migration's edits

An edit of a migrated unit deletes an old import, takes directive lines out of a doc comment, adds
attribute groups to a declaration, or writes the new imports of a scope. Each form says where the
edit lies and what it writes, so that a property of all edits needs one argument for each form.
-/

namespace TagLift

/-! ## Migrated declarations -/

/-- New groups for directives that are asked for. -/
def NewGroups (asked : List Directive) (groups : List AttributeGroup) : Prop :=
  ∀ group ∈ groups, ∃ directive ∈ asked, group = directive.toGroup

theorem NewGroups.mono {asked more : List Directive} {groups : List AttributeGroup}
    (new : NewGroups asked groups) (subset : asked ⊆ more) : NewGroups more groups := by
  intro group member
  obtain ⟨directive, inAsked, rfl⟩ := new group member
  exact ⟨directive, subset inAsked, rfl⟩

namespace Declaration

/-- The new declaration stands where the old one does. Its doc comment may have lost directive
lines, and groups that were asked for may have been appended. -/
structure Derived (asked : List Directive) (old new : Declaration) : Prop where
  grown : old.Grown new
  stripped : ∃ kinds, new.doc =
    old.doc.map fun doc => { doc with text := stripDirectives kinds doc.text }
  appended : ∃ added, new.groups = old.groups ++ added ∧ NewGroups asked added

theorem derived_refl (asked : List Directive) (decl : Declaration) : decl.Derived asked decl where
  grown := decl.grown_refl
  stripped := ⟨[], by simp⟩
  appended := ⟨[], by simp, List.forall_mem_nil _⟩

theorem exists_groups_pushAll (decl : Declaration) (directives : List Directive) :
    ∃ added, (decl.pushAll directives).groups = decl.groups ++ added ∧
      NewGroups directives added := by
  obtain ⟨added, equal, pushed⟩ :=
    AttributeGroup.foldl_pushUnique_eq_append (directives.map Directive.toGroup) decl.groups
  refine ⟨added, equal, fun group member => ?_⟩
  obtain ⟨directive, asked, rfl⟩ := List.mem_map.1 (pushed member)
  exact ⟨directive, asked, rfl⟩

theorem derived_pushAll_strip (decl : Declaration) (directives : List Directive)
    (kinds : List DirectiveKind) :
    decl.Derived directives ((decl.pushAll directives).strip kinds) where
  grown := (grown_pushAll decl directives).trans (grown_strip _ kinds)
  stripped := ⟨kinds, rfl⟩
  appended := decl.exists_groups_pushAll directives

theorem Derived.mono {asked more : List Directive} {old new : Declaration}
    (derived : old.Derived asked new) (subset : asked ⊆ more) : old.Derived more new := by
  obtain ⟨added, equal, groups⟩ := derived.appended
  exact { derived with appended := ⟨added, equal, groups.mono subset⟩ }

end Declaration

namespace ClassDecl

variable (decl : ClassDecl)

/-- The own declaration of a migrated class. -/
theorem derived_migrated : decl.decl.Derived decl.directives decl.migrated.decl := by
  by_cases proper : decl.kind = .cls
  · have both := decl.decl.derived_pushAll_strip
      (decl.decl.found.onClass ++ decl.coveredRefs.map .covers) decl.decl.found.classKinds
    rw [Declaration.pushAll_append, ← Declaration.pushAll_strip] at both
    rw [migrated_decl_of_cls decl proper]
    apply both.mono
    simp only [directives, if_pos proper]
    exact List.append_subset.2 ⟨by simp, by simp⟩
  · rw [migrated_decl_of_not_cls decl proper]
    exact decl.decl.derived_refl _

/-- The methods of a migrated class. -/
theorem derived_migratedMethod {method : Declaration} (member : method ∈ decl.methods) :
    method.Derived decl.directives method.migratedMethod := by
  apply (method.derived_pushAll_strip _ _).mono
  intro directive asked
  have onMethods : directive ∈ decl.methods.flatMap (·.found.onMethod) :=
    List.mem_flatMap.2 ⟨method, member, asked⟩
  simp [directives, onMethods]

end ClassDecl

/-! ## Edits of declarations -/

namespace Print

variable {page : Page} {source : Text} {root : Node} {edit : Edit}

/-- An edit of a declaration: its doc comment loses directive lines, or new groups go behind one of
its groups or in front of it. -/
inductive Page.DeclEdit (page : Page) (asked : List Directive) (decl : Declaration) : Edit → Prop
  | doc (kinds : List DirectiveKind) {doc : DocComment} {span : Span}
      (documents : decl.doc = some doc) (atDoc : doc.span = some span) :
      DeclEdit page asked decl ⟨span.start, span.stop, stripDirectives kinds doc.text⟩
  | behind {group : AttributeGroup} {span : Span} {added : List AttributeGroup}
      (filled : added ≠ []) (new : NewGroups asked added) (isOld : group ∈ decl.groups)
      (atGroup : group.span = some span) :
      DeclEdit page asked decl (.insert span.stop
        ((added.map AttributeGroup.render).flatMap
          (page.newline ++ lineIndent page.source decl.span.start ++ ·)))
  | front {added : List AttributeGroup} (filled : added ≠ []) (new : NewGroups asked added) :
      DeclEdit page asked decl (.insert decl.attributeAnchor
        ((added.map AttributeGroup.render).flatMap
          (· ++ page.newline ++ lineIndent page.source decl.span.start)))

theorem declEdit_of_mem_docEdit {asked : List Directive} {old new : Declaration}
    (derived : old.Derived asked new) (member : edit ∈ Page.docEdit old new) :
    page.DeclEdit asked old edit := by
  obtain ⟨kinds, stripped⟩ := derived.stripped
  cases documents : old.doc with
  | none => simp [Page.docEdit, documents] at member
  | some doc =>
      cases atDoc : doc.span with
      | none => simp [Page.docEdit, documents, stripped, atDoc] at member
      | some span =>
          have only : edit = ⟨span.start, span.stop, stripDirectives kinds doc.text⟩ := by
            have changed := member
            simp only [Page.docEdit, documents, stripped, Option.map_some, atDoc] at changed
            split at changed
            · cases changed
            · exact List.mem_singleton.1 changed
          rw [only]
          exact .doc kinds documents atDoc

theorem declEdit_of_mem_groupEdit {asked : List Directive} {old new : Declaration}
    (derived : old.Derived asked new) (read : old.ReadFrom source root)
    (member : edit ∈ page.groupEdit new) : page.DeclEdit asked old edit := by
  obtain ⟨added, appended, groups⟩ := derived.appended
  have spanless : new.groups.filter (·.span.isNone) = added := by
    have olds : old.groups.filter (·.span.isNone) = [] := by
      rw [List.filter_eq_nil_iff]
      intro group isOld
      simp [Option.isSome_iff_ne_none.1 (read.groups group isOld)]
    have news : added.filter (·.span.isNone) = added := by
      rw [List.filter_eq_self]
      intro group isNew
      obtain ⟨directive, -, rfl⟩ := groups group isNew
      rfl
    rw [appended, List.filter_append, olds, news, List.nil_append]
  simp only [Page.groupEdit, spanless, derived.grown.groups, derived.grown.span,
    derived.grown.anchor] at member
  split at member
  · cases member
  next some =>
    have filled : added ≠ [] := by simpa using some
    split at member
    next span found =>
      obtain ⟨group, isOld, atGroup⟩ := List.mem_filterMap.1 (List.mem_of_getLast? found)
      rw [List.mem_singleton.1 member]
      exact .behind filled groups isOld atGroup
    next =>
      rw [List.mem_singleton.1 member]
      exact .front filled groups

theorem declEdit_of_mem_diffDeclaration {asked : List Directive} {old new : Declaration}
    (derived : old.Derived asked new) (read : old.ReadFrom source root)
    (member : edit ∈ page.diffDeclaration old new) : page.DeclEdit asked old edit := by
  rcases List.mem_append.1 member with ofDoc | ofGroups
  · exact declEdit_of_mem_docEdit derived ofDoc
  · exact declEdit_of_mem_groupEdit derived read ofGroups

theorem exists_declEdit_of_mem_diffClass {decl : ClassDecl} (read : decl.ReadFrom source root)
    (member : edit ∈ page.diffClass decl decl.migrated) :
    ∃ inner ∈ decl.declarations, page.DeclEdit decl.directives inner edit := by
  rcases List.mem_append.1 member with own | ofMethods
  · exact ⟨decl.decl, List.mem_cons_self, declEdit_of_mem_diffDeclaration decl.derived_migrated
      (read _ List.mem_cons_self) own⟩
  · rw [ClassDecl.migrated, flatMap_zip_map] at ofMethods
    obtain ⟨method, isMethod, inside⟩ := List.mem_flatMap.1 ofMethods
    have declared : method ∈ decl.declarations := List.mem_cons_of_mem _ isMethod
    exact ⟨method, declared, declEdit_of_mem_diffDeclaration (decl.derived_migratedMethod isMethod)
      (read method declared) inside⟩

/-- An edit inside a migrated statement is an edit of one of its declarations. -/
theorem exists_declEdit_of_mem_diffStmt {stmt : Stmt} (read : stmt.ReadFrom source root)
    (plain : stmt.isNamespace = false) (member : edit ∈ page.diffStmt stmt stmt.migrated) :
    ∃ decl ∈ stmt.classes, ∃ inner ∈ decl.declarations,
      page.DeclEdit decl.directives inner edit := by
  cases read with
  | nspace => cases plain
  | classLike read => exact ⟨_, List.mem_cons_self, exists_declEdit_of_mem_diffClass read member⟩
  | @enclosing span classes each =>
      have edits : page.diffStmt (.enclosing span classes) (Stmt.enclosing span classes).migrated =
          classes.flatMap fun decl => page.diffClass decl decl.migrated :=
        flatMap_zip_map classes ClassDecl.migrated fun pair => page.diffClass pair.1 pair.2
      rw [edits] at member
      obtain ⟨decl, declared, inside⟩ := List.mem_flatMap.1 member
      exact ⟨decl, declared, exists_declEdit_of_mem_diffClass (each decl declared) inside⟩
  | uses | inclusion | declare | other => cases member

end Print

/-- The text of a new import. -/
theorem Print.renderStmt_ofImport (page : Print.Page) (decl : Import) :
    page.renderStmt (.ofImport decl) = decl.render := by
  simp [Print.Page.renderStmt, Stmt.ofImport, Stmt.span?, Stmt.imports]

/-! ## Edits of units -/

namespace SourceUnit

/-- An edit that writes new imports into a scope. -/
structure ImportEdit (source : Text) (unit : SourceUnit) (scope : List Stmt) (edit : Edit) :
    Prop where
  place : unit.importPlace? scope = some edit.start
  fills : ∃ block, Stmt.NewImports scope block ∧ ∃ stmt ∈ scope, ∃ span,
    stmt.span? = some span ∧ (Print.Page.ofSource source).GapEdit block stmt span edit

/-- An edit of a migrated unit. -/
inductive MigrationEdit (source : Text) (unit : SourceUnit) : Edit → Prop
  | delete {stmt : Stmt} {span : Span} (isOld : stmt ∈ unit.stmts.flatMap Stmt.leaves)
      (spanned : stmt.span? = some span) :
      MigrationEdit source unit (.delete ((Print.Page.ofSource source).lineSpan span).start
        ((Print.Page.ofSource source).lineSpan span).stop)
  | declared {stmt : Stmt} {decl : ClassDecl} {inner : Declaration} {edit : Edit}
      (isOld : stmt ∈ unit.stmts.flatMap Stmt.leaves) (isClass : decl ∈ stmt.classes)
      (declares : inner ∈ decl.declarations)
      (ofDecl : (Print.Page.ofSource source).DeclEdit decl.directives inner edit) :
      MigrationEdit source unit edit
  | imports {scope : List Stmt} {edit : Edit}
      (grown : scope ∈ unit.grownScopes unit.migrateAndResolve.1)
      (writes : unit.ImportEdit source scope edit) : MigrationEdit source unit edit

theorem mem_scopes_of_mem_grownScopes {old new : SourceUnit} {scope : List Stmt}
    (grown : scope ∈ old.grownScopes new) : scope ∈ old.scopes := by
  obtain ⟨pair, inside, rfl⟩ := List.mem_map.1 grown
  exact (List.of_mem_zip (List.mem_filter.1 inside).1).1

section OfTree

variable {source : Text} {root : Node} (formed : root.WellFormed source)

include formed

/-- The statements of a scope have spans of their own. -/
theorem spanned_of_mem_scopes {scope : List Stmt}
    (isScope : scope ∈ (ofTree source root).scopes) : Stmt.Spanned scope := by
  have lined := lined_ofTree formed
  have all : Stmt.Spanned ((ofTree source root).stmts.flatMap Stmt.leaves) := by
    constructor
    · intro stmt member
      obtain ⟨span, stands, -⟩ := lined.exists_stands member
      exact ⟨span, stands.spanned⟩
    · exact lined.pairwise_before.imp fun before => before.span?_ne
  exact all.sublist (sublist_leaves_of_mem_scopes isScope)

theorem migrationEdit_of_mem_diffStmt {stmt : Stmt} {edit : Edit}
    (isOld : stmt ∈ (ofTree source root).stmts.flatMap Stmt.leaves)
    (member : edit ∈ (Print.Page.ofSource source).diffStmt stmt stmt.migrated) :
    (ofTree source root).MigrationEdit source edit := by
  have read := readFrom_leaves_ofTree source root stmt isOld
  obtain ⟨span, stands, -⟩ := (lined_ofTree formed).exists_stands isOld
  obtain ⟨decl, isClass, inner, declares, ofDecl⟩ :=
    Print.exists_declEdit_of_mem_diffStmt read stands.plain member
  exact .declared isOld isClass declares ofDecl

theorem migrationEdit_of_oldEdit {olds : List Stmt} {edit : Edit}
    (subset : olds ⊆ (ofTree source root).stmts.flatMap Stmt.leaves)
    (old : (Print.Page.ofSource source).OldEdit Stmt.migrated olds edit) :
    (ofTree source root).MigrationEdit source edit := by
  obtain ⟨stmt, isOld, deletes | inside⟩ := old
  · cases spanned : stmt.span? with
    | none => simp [Print.Page.deleteStmt, spanned] at deletes
    | some span =>
        simp only [Print.Page.deleteStmt, spanned, List.mem_singleton] at deletes
        rw [deletes]
        exact .delete (subset isOld) spanned
  · exact migrationEdit_of_mem_diffStmt formed (subset isOld) inside

/-- All edits of a scope have one of the forms, and one of them writes its new imports, if any. -/
theorem scope_edits {pair : List Stmt × List Stmt} (container : Print.Container)
    (together : pair ∈ (ofTree source root).scopes.zip
      (ofTree source root).migrateAndResolve.1.scopes) :
    let edits := (Print.Page.ofSource source).diffStmts container none pair.1 [] pair.2
    (∀ edit ∈ edits, (ofTree source root).MigrationEdit source edit) ∧
      (pair.2.any (·.span?.isNone) →
        ∃ edit ∈ edits, (ofTree source root).ImportEdit source pair.1 edit) := by
  have isScope := (List.of_mem_zip together).1
  have subset := (sublist_leaves_of_mem_scopes isScope).subset
  have rewritten := (rewritten_migrateAndResolve (ofTree source root)).scope_of_mem_zip together
  rcases rewritten.edits (spanned_of_mem_scopes formed isScope) (Print.Page.ofSource source)
      container with ⟨spanned, old⟩ | ⟨block, new, inNew, written, member, place, fills, others⟩
  · constructor
    · exact fun edit member => migrationEdit_of_oldEdit formed subset (old edit member)
    · intro spanless
      obtain ⟨stmt, isNew, none⟩ := List.any_eq_true.1 spanless
      exact absurd (Option.isNone_iff_eq_none.1 none) (spanned stmt isNew)
  · have writes : (ofTree source root).ImportEdit source pair.1 written :=
      ⟨place, block, new, fills⟩
    have grown : pair.1 ∈ (ofTree source root).grownScopes
        (ofTree source root).migrateAndResolve.1 := by
      obtain ⟨stmt, inBlock⟩ := List.exists_mem_of_ne_nil _ new.filled
      refine List.mem_map.2 ⟨pair, List.mem_filter.2 ⟨together, ?_⟩, rfl⟩
      exact List.any_eq_true.2 ⟨stmt, inNew inBlock, by simp [new.span?_eq_none stmt inBlock]⟩
    constructor
    · intro edit inside
      rcases others edit inside with rfl | old
      · exact .imports grown writes
      · exact migrationEdit_of_oldEdit formed subset old
    · exact fun _ => ⟨written, member, writes⟩

/-- Every edit of a migrated unit has one of the forms. -/
theorem migrationEdit_of_mem_structuralEdits {edit : Edit}
    (member : edit ∈ structuralEdits source (ofTree source root)
      (ofTree source root).migrateAndResolve.1) :
    (ofTree source root).MigrationEdit source edit := by
  rcases (rewritten_migrateAndResolve _).mem_structuralEdits_cases (isSome_span?_ofTree source root)
      member with ⟨stmt, isOld, inside⟩ | ⟨pair, together, container, inside⟩
  · exact migrationEdit_of_mem_diffStmt formed isOld inside
  · exact (scope_edits formed container together).1 edit inside

/-- New imports are written into every scope that gets new statements. -/
theorem exists_importEdit {scope : List Stmt}
    (grown : scope ∈ (ofTree source root).grownScopes (ofTree source root).migrateAndResolve.1) :
    ∃ edit ∈ structuralEdits source (ofTree source root) (ofTree source root).migrateAndResolve.1,
      (ofTree source root).ImportEdit source scope edit := by
  obtain ⟨pair, inside, rfl⟩ := List.mem_map.1 grown
  obtain ⟨together, spanless⟩ := List.mem_filter.1 inside
  obtain ⟨container, subset⟩ := (rewritten_migrateAndResolve (ofTree source root)).exists_container
    source (isSome_span?_ofTree source root) together
  obtain ⟨edit, member, writes⟩ := (scope_edits formed container together).2 spanless
  exact ⟨edit, subset member, writes⟩

end OfTree

end SourceUnit

end TagLift
