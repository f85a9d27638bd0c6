import TagLift.Proofs.Migration.Edits
import TagLift.Proofs.Print.Gap
import TagLift.Proofs.Source.Union

/-!
# The scopes of a migrated unit

A unit has one scope for imports in each of its namespaces, or a single one if it has none. What a
migration makes of a scope has one of three forms: all statements stay, migrated; new imports stand
in front of them; or all imports are written anew, at the front or behind the leading statements of
the file. Every new import was there before or names the class of a directive.
-/

namespace TagLift

namespace Stmt

/-- An import that a migration may write into statements: one of theirs, or the class of a
directive. -/
def MayImport (stmts : List Stmt) (decl : Import) : Prop :=
  decl ∈ presentImports stmts ∨ ∃ directive : Directive, decl = Import.ofClass directive.importName

/-- New statements for imports that a migration may write. -/
structure NewImports (olds block : List Stmt) : Prop where
  filled : block ≠ []
  each : ∀ stmt ∈ block, ∃ decl, MayImport olds decl ∧ stmt = ofImport decl

theorem NewImports.span?_eq_none {olds block : List Stmt} (imports : NewImports olds block) :
    ∀ stmt ∈ block, stmt.span? = none := by
  intro stmt member
  obtain ⟨decl, -, rfl⟩ := imports.each stmt member
  rfl

/-- The statements of a scope after a migration. -/
inductive Rewritten (afterPreamble : Bool) (olds : List Stmt) : List Stmt → Prop
  | kept : Rewritten afterPreamble olds (olds.map migrated)
  | front {block : List Stmt} (nested : afterPreamble = false) (imports : NewImports olds block)
      (declares : ∃ stmt ∈ olds, stmt.classes ≠ []) :
      Rewritten afterPreamble olds (block ++ olds.map migrated)
  | resolved {block : List Stmt} (imports : NewImports olds block)
      (declares : ∃ stmt ∈ olds, stmt.classes ≠ []) :
      Rewritten afterPreamble olds (withImports migrated afterPreamble block olds)

/-- A top-level statement of a file with namespaces after a migration. -/
inductive TopRewritten : Stmt → Stmt → Prop
  | plain {stmt : Stmt} (plain : stmt.isNamespace = false) : TopRewritten stmt stmt.migrated
  | nspace (head : NamespaceHead) {olds news : List Stmt} (rewritten : Rewritten false olds news) :
      TopRewritten (.nspace head olds) (.nspace head news)

/-! ## The imports of a scope -/

theorem isUse_of_classes_ne_nil {stmt : Stmt} (declares : stmt.classes ≠ []) :
    stmt.isUse = false ∧ stmt.isPreamble = false := by
  cases stmt with
  | classLike | enclosing => exact ⟨rfl, rfl⟩
  | nspace | uses | inclusion | declare | other => exact absurd rfl declares

/-- A scope that requires an import declares a class. -/
theorem exists_classes_ne_nil_of_required {stmts : List Stmt}
    (required : requiredNames (stmts.flatMap classes) ≠ []) :
    ∃ stmt ∈ stmts, stmt.classes ≠ [] := by
  obtain ⟨name, member⟩ := List.exists_mem_of_ne_nil _ required
  obtain ⟨decl, inside, -⟩ := mem_importNames.1 (mem_sortUnique.1 member)
  obtain ⟨stmt, isStmt, inside⟩ := List.mem_flatMap.1 inside
  exact ⟨stmt, isStmt, List.ne_nil_of_mem inside⟩

theorem mayImport_of_mem_requiredNames {stmts : List Stmt} {declared : List ClassDecl}
    {name : Text} (required : name ∈ requiredNames declared) :
    MayImport stmts (Import.ofClass name) := by
  obtain ⟨decl, -, directive, -, rfl⟩ := mem_importNames.1 (mem_sortUnique.1 required)
  exact .inr ⟨directive, rfl⟩

theorem mayImport_of_mem_missingImports {olds stmts : List Stmt} {declared : List ClassDecl}
    {stmt : Stmt} (member : stmt ∈ missingImports (requiredNames declared) stmts) :
    ∃ decl, MayImport olds decl ∧ stmt = ofImport decl := by
  obtain ⟨decl, missing, rfl⟩ := List.mem_map.1 member
  obtain ⟨name, required, rfl⟩ := List.mem_map.1 (List.mem_filter.1 missing).1
  exact ⟨_, mayImport_of_mem_requiredNames required, rfl⟩

/-- What is resolved is the block between the leading statements and the others. -/
theorem withImports_eq {change : Stmt → Stmt}
    (leads : ∀ stmt, (change stmt).isPreamble = stmt.isPreamble) (afterPreamble : Bool)
    (block olds : List Stmt) :
    let others := (olds.filter (!·.isUse)).map change
    let front := if afterPreamble then others.takeWhile isPreamble else []
    front ++ block ++ others.drop front.length = withImports change afterPreamble block olds := by
  induction olds with
  | nil => cases afterPreamble <;> simp [withImports]
  | cons stmt olds ih =>
      cases use : stmt.isUse with
      | true =>
          rw [withImports_use _ _ _ use, ← ih, List.filter_cons_of_neg (by simp [use])]
      | false =>
          rw [List.filter_cons_of_pos (by simp [use]), List.map_cons]
          cases stays : afterPreamble && stmt.isPreamble with
          | true =>
              rw [withImports_lead _ _ _ use stays, ← ih]
              obtain ⟨rfl, preamble⟩ := Bool.and_eq_true_iff.1 stays
              simp [leads, preamble]
          | false =>
              rw [withImports_stay _ _ _ use stays]
              cases afterPreamble with
              | false => simp
              | true => simp [leads, show stmt.isPreamble = false from stays]

/-- The new statements of a scope whose imports are written anew. -/
theorem rewritten_of_resolve?_eq_some {olds news written : List Stmt} {afterPreamble : Bool}
    (derived : MigratedFrom olds news) (known : ∀ decl ∈ presentImports news, MayImport olds decl)
    (resolved : resolve? (requiredNames (olds.flatMap classes)) afterPreamble news =
      some written) : Rewritten afterPreamble olds written := by
  have required : requiredNames (olds.flatMap classes) ≠ [] := by
    intro nothing
    rw [nothing, resolve?_nil] at resolved
    cases resolved
  have others : news.filter (!·.isUse) = (olds.filter (!·.isUse)).map migrated := by
    rw [derived, List.filter_map]
    congr 1
    exact List.filter_congr fun stmt _ => by simp [isUse_migrated]
  simp only [resolve?] at resolved
  split at resolved
  · cases resolved
  · rw [others] at resolved
    obtain rfl := Option.some.inj resolved
    rw [withImports_eq isPreamble_migrated]
    refine .resolved ⟨?_, ?_⟩ (exists_classes_ne_nil_of_required required)
    · obtain ⟨name, asked⟩ := List.exists_mem_of_ne_nil _ required
      have wanted : Import.ofClass name ∈
          resolvedImports (requiredNames (olds.flatMap classes)) news := by
        simp [resolvedImports, List.mem_map_of_mem asked]
      exact fun empty => List.ne_nil_of_mem wanted (List.map_eq_nil_iff.1 empty)
    · intro stmt member
      obtain ⟨decl, written, rfl⟩ := List.mem_map.1 member
      refine ⟨decl, ?_, rfl⟩
      rw [resolvedImports, mem_sortUnique, List.mem_append] at written
      rcases written with present | asked
      · exact known decl present
      · obtain ⟨name, required, rfl⟩ := List.mem_map.1 asked
        exact mayImport_of_mem_requiredNames required

theorem rewritten_bodyMigrated (body : List Stmt) : Rewritten false body (bodyMigrated body) := by
  by_cases none : missingImports (requiredNames (body.flatMap classes)) (body.map migrated) = []
  · rw [bodyMigrated, insertMissing, none, List.nil_append]
    exact .kept
  · refine .front rfl ⟨none, fun stmt member => mayImport_of_mem_missingImports member⟩ ?_
    apply exists_classes_ne_nil_of_required
    intro nothing
    exact none (by simp [missingImports, nothing])

theorem mayImport_of_mem_bodyMigrated {body : List Stmt} :
    ∀ decl ∈ presentImports (bodyMigrated body), MayImport body decl := by
  intro decl member
  rw [bodyMigrated, insertMissing, presentImports_append, presentImports_map_migrated,
    List.mem_append] at member
  rcases member with missing | present
  · obtain ⟨stmt, inside, isImport⟩ := List.mem_flatMap.1 missing
    obtain ⟨other, may, rfl⟩ := mayImport_of_mem_missingImports inside
    obtain rfl := List.mem_singleton.1 isImport
    exact may
  · exact .inl present

/-- Resolved or not, a scope is rewritten. -/
theorem rewritten_getD_resolve? {olds news : List Stmt} {afterPreamble : Bool}
    (derived : MigratedFrom olds news) (known : ∀ decl ∈ presentImports news, MayImport olds decl)
    (rewritten : Rewritten afterPreamble olds news) :
    Rewritten afterPreamble olds
      ((resolve? (requiredNames (olds.flatMap classes)) afterPreamble news).getD news) := by
  cases resolved : resolve? (requiredNames (olds.flatMap classes)) afterPreamble news with
  | none => exact rewritten
  | some written => exact rewritten_of_resolve?_eq_some derived known resolved

theorem topRewritten_topMigrated (stmt : Stmt) : stmt.TopRewritten stmt.topMigrated := by
  rcases stmt.nspace_or_plain with ⟨head, body, rfl⟩ | plain
  · exact .nspace head (rewritten_bodyMigrated body)
  · rw [topMigrated_of_not_isNamespace plain]
    exact .plain plain

/-! ## Rewritten scopes -/

theorem mem_withImports {change : Stmt → Stmt} {afterPreamble : Bool} {block olds : List Stmt}
    {stmt : Stmt} (member : stmt ∈ withImports change afterPreamble block olds) :
    stmt ∈ block ∨ ∃ old ∈ olds, stmt = change old := by
  induction olds with
  | nil => exact .inl member
  | cons first olds ih =>
      have later (inRest : stmt ∈ withImports change afterPreamble block olds) :
          stmt ∈ block ∨ ∃ old ∈ first :: olds, stmt = change old :=
        (ih inRest).imp id fun ⟨old, isOld, same⟩ => ⟨old, by simp [isOld], same⟩
      cases use : first.isUse with
      | true => exact later (by rwa [withImports_use _ _ _ use] at member)
      | false =>
          cases leads : afterPreamble && first.isPreamble with
          | true =>
              rw [withImports_lead _ _ _ use leads] at member
              rcases List.mem_cons.1 member with rfl | inRest
              · exact .inr ⟨first, by simp, rfl⟩
              · exact later inRest
          | false =>
              rw [withImports_stay _ _ _ use leads] at member
              rcases List.mem_append.1 member with inBlock | inRest
              · exact .inl inBlock
              · rcases List.mem_cons.1 inRest with rfl | kept
                · exact .inr ⟨first, by simp, rfl⟩
                · obtain ⟨old, isKept, rfl⟩ := List.mem_map.1 kept
                  exact .inr ⟨old, by simp [(List.mem_filter.1 isKept).1], rfl⟩

theorem subset_withImports (change : Stmt → Stmt) (afterPreamble : Bool) (block olds : List Stmt) :
    block ⊆ withImports change afterPreamble block olds := by
  induction olds with
  | nil => exact List.Subset.refl _
  | cons stmt olds ih =>
      cases use : stmt.isUse with
      | true => rwa [withImports_use _ _ _ use]
      | false =>
          cases leads : afterPreamble && stmt.isPreamble with
          | true =>
              rw [withImports_lead _ _ _ use leads]
              exact List.Subset.trans ih (List.subset_cons_self _ _)
          | false =>
              rw [withImports_stay _ _ _ use leads]
              exact List.subset_append_left _ _

/-- A rewritten scope holds no namespace if the old one held none. -/
theorem Rewritten.isNamespace_eq_false {afterPreamble : Bool} {olds news : List Stmt}
    (rewritten : Rewritten afterPreamble olds news)
    (others : ∀ stmt ∈ olds, stmt.isNamespace = false) :
    ∀ stmt ∈ news, stmt.isNamespace = false := by
  have cases {block : List Stmt} (imports : NewImports olds block) {stmt : Stmt}
      (member : stmt ∈ block ∨ ∃ old ∈ olds, stmt = migrated old) : stmt.isNamespace = false := by
    rcases member with inBlock | ⟨old, isOld, rfl⟩
    · obtain ⟨decl, -, rfl⟩ := imports.each stmt inBlock
      rfl
    · rw [isNamespace_migrated]
      exact others old isOld
  intro stmt member
  cases rewritten with
  | kept => exact isNamespace_map_migrated others stmt member
  | front nested imports =>
      refine cases imports ((List.mem_append.1 member).imp id fun inside => ?_)
      obtain ⟨old, isOld, rfl⟩ := List.mem_map.1 inside
      exact ⟨old, isOld, rfl⟩
  | resolved imports => exact cases imports (mem_withImports member)

theorem TopRewritten.body {head : NamespaceHead} {olds news : List Stmt}
    (rewritten : TopRewritten (.nspace head olds) (.nspace head news)) :
    Rewritten false olds news := by
  cases rewritten with
  | plain plain => cases plain
  | nspace _ rewritten => exact rewritten

theorem TopRewritten.span? {old new : Stmt} (rewritten : old.TopRewritten new) :
    new.span? = old.span? := by
  cases rewritten with
  | plain => exact span?_migrated old
  | nspace => rfl

/-- The edits of a rewritten scope are all of old statements and nothing in it is new, or one of
them writes new imports at the place of the scope. -/
theorem Rewritten.edits {afterPreamble : Bool} {olds news : List Stmt}
    (rewritten : Rewritten afterPreamble olds news) (spanned : Spanned olds) (page : Print.Page)
    (container : Print.Container) :
    ((∀ stmt ∈ news, stmt.span? ≠ none) ∧
      ∀ edit ∈ page.diffStmts container none olds [] news, page.OldEdit migrated olds edit) ∨
    ∃ block, NewImports olds block ∧ block ⊆ news ∧
      page.WritesBlock migrated block olds (importPlace? afterPreamble olds)
        (page.diffStmts container none olds [] news) := by
  cases rewritten with
  | kept =>
      left
      constructor
      · intro stmt member
        obtain ⟨old, isOld, rfl⟩ := List.mem_map.1 member
        obtain ⟨span, atOld⟩ := spanned.spanned old isOld
        simp [span?_migrated, atOld]
      · exact fun edit member => Print.oldEdit_of_map page container span?_migrated spanned member
  | front nested imports declares =>
      obtain ⟨stmt, isOld, some⟩ := declares
      refine .inr ⟨_, imports, List.subset_append_left _ _, ?_⟩
      rw [nested]
      exact Print.writesBlock_front page container span?_migrated imports.span?_eq_none
        imports.filled spanned ⟨stmt, isOld, (isUse_of_classes_ne_nil some).1⟩
  | resolved imports declares =>
      obtain ⟨stmt, isOld, some⟩ := declares
      refine .inr ⟨_, imports, subset_withImports _ _ _ _, ?_⟩
      obtain ⟨notUse, notPreamble⟩ := isUse_of_classes_ne_nil some
      have whole : Spanned (none.toList ++ [] ++ olds) := spanned
      exact Print.writesBlock_withImports page container span?_migrated imports.span?_eq_none
        imports.filled whole ⟨stmt, isOld, notUse, by simp [notPreamble]⟩

end Stmt

namespace SourceUnit

/-- Whether a unit has a namespace. -/
def hasNamespace (unit : SourceUnit) : Bool :=
  unit.stmts.any Stmt.isNamespace

/-- The statements of each scope for imports: the bodies of the namespaces, or else the file. -/
def scopes (unit : SourceUnit) : List (List Stmt) :=
  if unit.hasNamespace then (unit.stmts.filter Stmt.isNamespace).map Stmt.body else [unit.stmts]

/-- The offset at which new imports are written into a scope of the unit. -/
def importPlace? (unit : SourceUnit) (scope : List Stmt) : Option Nat :=
  Stmt.importPlace? (!unit.hasNamespace) scope

/-- The scopes into which new statements are written. -/
def grownScopes (old new : SourceUnit) : List (List Stmt) :=
  ((old.scopes.zip new.scopes).filter fun pair => pair.2.any (·.span?.isNone)).map Prod.fst

/-- The offsets at which new imports are written, one for each of these scopes. -/
def importPlaces (old new : SourceUnit) : List Nat :=
  (old.grownScopes new).filterMap old.importPlace?

/-- A unit after its migration: a file that is one scope, or a file with namespaces. -/
inductive Rewritten (old new : SourceUnit) : Prop
  | file (none : old.hasNamespace = false) (none' : new.hasNamespace = false)
      (scope : Stmt.Rewritten true old.stmts new.stmts)
  | namespaces (some : old.hasNamespace = true) (some' : new.hasNamespace = true)
      (tops : List.Forall₂ Stmt.TopRewritten old.stmts new.stmts)

theorem rewritten_of_no_nspace {unit : SourceUnit}
    (others : ∀ stmt ∈ unit.stmts, stmt.isNamespace = false) :
    unit.Rewritten unit.migrateAndResolve.1 := by
  have scope : Stmt.Rewritten true unit.stmts unit.migrateAndResolve.1.stmts := by
    rw [migrateAndResolve_of_no_nspace others]
    refine Stmt.rewritten_getD_resolve? (Stmt.migratedFrom_map_migrated _) (fun decl member => ?_)
      .kept
    rw [Stmt.presentImports_map_migrated] at member
    exact .inl member
  refine .file ?_ ?_ scope
  · simpa [hasNamespace] using others
  · simpa [hasNamespace] using scope.isNamespace_eq_false others

theorem rewritten_of_nspace {unit : SourceUnit} {head : NamespaceHead}
    {before body after : List Stmt} (split : unit.stmts = before ++ .nspace head body :: after)
    (others : ∀ stmt ∈ before, stmt.isNamespace = false) :
    unit.Rewritten unit.migrateAndResolve.1 := by
  have migrated := congrArg SourceUnit.stmts (migrateAndResolve_of_nspace split others)
  refine .namespaces ?_ ?_ ?_
  · simp [hasNamespace, split, Stmt.isNamespace]
  · simp [hasNamespace, migrated, Stmt.isNamespace]
  · rw [migrated, split]
    apply List.rel_append
    · rw [List.forall₂_map_right_iff, List.forall₂_same]
      exact fun stmt member => .plain (others stmt member)
    · refine .cons (.nspace head ?_) ?_
      · exact Stmt.rewritten_getD_resolve? (Stmt.migratedFrom_bodyMigrated body)
          Stmt.mayImport_of_mem_bodyMigrated (Stmt.rewritten_bodyMigrated body)
      · rw [List.forall₂_map_right_iff, List.forall₂_same]
        exact fun stmt _ => stmt.topRewritten_topMigrated

theorem rewritten_migrateAndResolve (unit : SourceUnit) :
    unit.Rewritten unit.migrateAndResolve.1 := by
  rcases namespace_cases unit.stmts with others | ⟨before, head, body, after, split, others⟩
  · exact rewritten_of_no_nspace others
  · exact rewritten_of_nspace split others

theorem sublist_leaves_of_mem_scopes {unit : SourceUnit} {scope : List Stmt}
    (member : scope ∈ unit.scopes) : scope.Sublist (unit.stmts.flatMap Stmt.leaves) := by
  rw [scopes] at member
  split at member
  · obtain ⟨stmt, isNspace, rfl⟩ := List.mem_map.1 member
    obtain ⟨inUnit, nspace⟩ := List.mem_filter.1 isNspace
    rcases stmt.nspace_or_plain with ⟨head, body, rfl⟩ | plain
    · exact Print.sublist_leaves inUnit
    · rw [plain] at nspace
      cases nspace
  next none =>
    obtain rfl := List.mem_singleton.1 member
    have plain : ∀ stmt ∈ unit.stmts, stmt.isNamespace = false := by
      simpa [hasNamespace] using none
    rw [Stmt.flatMap_leaves_of_not_isNamespace plain]

/-- The old and new bodies of namespaces side by side. -/
theorem mem_zip_bodies {olds news : List Stmt} (tops : List.Forall₂ Stmt.TopRewritten olds news)
    {pair : List Stmt × List Stmt} :
    pair ∈ ((olds.filter Stmt.isNamespace).map Stmt.body).zip
        ((news.filter Stmt.isNamespace).map Stmt.body) ↔
      ∃ head, (Stmt.nspace head pair.1, Stmt.nspace head pair.2) ∈ olds.zip news := by
  induction tops with
  | nil => simp
  | @cons old new olds news here _ ih =>
      cases here with
      | plain plain =>
          have plain' : old.migrated.isNamespace = false := by
            rw [Stmt.isNamespace_migrated, plain]
          rw [List.filter_cons_of_neg (by simp [plain]), List.filter_cons_of_neg (by simp [plain']),
            ih, List.zip_cons_cons]
          refine exists_congr fun head => ?_
          rw [List.mem_cons, or_iff_right]
          intro same
          rw [← (Prod.mk.inj same).1] at plain
          cases plain
      | nspace head rewritten =>
          rw [List.filter_cons_of_pos rfl, List.filter_cons_of_pos rfl, List.map_cons,
            List.map_cons, List.zip_cons_cons, List.mem_cons, ih, List.zip_cons_cons]
          constructor
          · rintro (rfl | ⟨other, inside⟩)
            · exact ⟨head, List.mem_cons_self⟩
            · exact ⟨other, List.mem_cons_of_mem _ inside⟩
          · rintro ⟨other, member⟩
            rcases List.mem_cons.1 member with same | inside
            · obtain ⟨first, second⟩ := Prod.mk.inj same
              exact .inl (Prod.ext (Stmt.nspace.inj first).2 (Stmt.nspace.inj second).2)
            · exact .inr ⟨other, inside⟩

theorem same_spans {olds news : List Stmt} (tops : List.Forall₂ Stmt.TopRewritten olds news)
    (spanned : ∀ stmt ∈ olds, stmt.span?.isSome) :
    List.Forall₂ (fun old new => old.span?.isSome ∧ new.span? = old.span?) olds news := by
  induction tops with
  | nil => exact .nil
  | cons here _ ih =>
      obtain ⟨some, later⟩ := List.forall_mem_cons.1 spanned
      exact .cons ⟨some, here.span?⟩ (ih later)

namespace Rewritten

variable {old new : SourceUnit} (rewritten : old.Rewritten new)

include rewritten

theorem scope_of_mem_zip {pair : List Stmt × List Stmt}
    (member : pair ∈ old.scopes.zip new.scopes) :
    Stmt.Rewritten (!old.hasNamespace) pair.1 pair.2 := by
  cases rewritten with
  | file none none' scope =>
      simp only [scopes, none, none', Bool.false_eq_true, if_false, List.zip_cons_cons,
        List.zip_nil_right, List.mem_singleton] at member
      rw [none, member]
      exact scope
  | namespaces some some' tops =>
      simp only [scopes, some, some', if_true] at member
      obtain ⟨head, together⟩ := (mem_zip_bodies tops).1 member
      rw [some]
      exact ((List.forall₂_iff_zip.1 tops).2 together).body

/-- All edits of a scope are edits of the unit. -/
theorem exists_container (source : Text) (spanned : ∀ stmt ∈ old.stmts, stmt.span?.isSome)
    {pair : List Stmt × List Stmt} (member : pair ∈ old.scopes.zip new.scopes) :
    ∃ container, (Print.Page.ofSource source).diffStmts container none pair.1 [] pair.2 ⊆
      structuralEdits source old new := by
  cases rewritten with
  | file none none' scope =>
      simp only [scopes, none, none', Bool.false_eq_true, if_false, List.zip_cons_cons,
        List.zip_nil_right, List.mem_singleton] at member
      rw [member]
      exact ⟨_, List.Subset.refl _⟩
  | namespaces some some' tops =>
      simp only [scopes, some, some', if_true] at member
      obtain ⟨head, together⟩ := (mem_zip_bodies tops).1 member
      refine ⟨(Print.Page.ofSource source).namespaceContainer head head pair.1, ?_⟩
      rw [structuralEdits, Print.diffStmts_eq_flatMap_zip _ _ (same_spans tops spanned)]
      exact fun edit inside => List.mem_flatMap.2 ⟨_, together, inside⟩

/-- The edits of a migrated unit are those of its scopes and, in a file with namespaces, those
inside the other statements. -/
theorem mem_structuralEdits_cases {source : Text}
    (spanned : ∀ stmt ∈ old.stmts, stmt.span?.isSome) {edit : Edit}
    (member : edit ∈ structuralEdits source old new) :
    (∃ stmt ∈ old.stmts.flatMap Stmt.leaves,
      edit ∈ (Print.Page.ofSource source).diffStmt stmt stmt.migrated) ∨
    ∃ pair ∈ old.scopes.zip new.scopes, ∃ container,
      edit ∈ (Print.Page.ofSource source).diffStmts container none pair.1 [] pair.2 := by
  cases rewritten with
  | file none none' scope =>
      refine .inr ⟨(old.stmts, new.stmts), ?_, _, member⟩
      simp [scopes, none, none']
  | namespaces some some' tops =>
      rw [structuralEdits, Print.diffStmts_eq_flatMap_zip _ _ (same_spans tops spanned)] at member
      obtain ⟨⟨before, after⟩, together, inside⟩ := List.mem_flatMap.1 member
      have top := (List.forall₂_iff_zip.1 tops).2 together
      cases top with
      | plain plain =>
          have isLeaf : before ∈ before.leaves := by simp [Stmt.leaves_of_not_isNamespace plain]
          have isTop := (List.of_mem_zip together).1
          exact .inl ⟨before, List.mem_flatMap.2 ⟨before, isTop, isLeaf⟩, inside⟩
      | @nspace head olds news rewritten =>
          refine .inr ⟨(olds, news), ?_, _, inside⟩
          simp only [scopes, some, some', if_true]
          exact (mem_zip_bodies tops).2 ⟨head, together⟩

end Rewritten

end SourceUnit

end TagLift
