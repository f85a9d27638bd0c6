import TagLift.Proofs.Doc.DirectiveLine
import TagLift.Proofs.Migration.Scopes

/-!
# No metadata is lost

A migrated doc comment is the old one without some lines. Each of them was empty, or held one
directive that the declaration now carries as a group. No line with a reference to a covered method
goes, and a class carries the references of its methods as well.
-/

namespace TagLift

/-! ## Lines that are left out -/

namespace Directives

/-- What of one kind was found and becomes a group of the same declaration. -/
def ofKind (found : Directives) : DirectiveKind → List Directive
  | .test => if found.test then [.test] else []
  | .group => found.groups.map .group
  | .dataProvider => found.dataProvider?.toList.map .dataProvider
  | .covers => []

theorem ofKind_subset_onMethod (found : Directives) (kind : DirectiveKind) :
    found.ofKind kind ⊆ found.onMethod := by
  intro directive member
  cases kind <;> simp_all [ofKind, onMethod]

end Directives

namespace DocLine

/-- A line without which nothing is lost, since the groups say what it says. The comment it comes
from is given by what was found in it: of its data providers only the first one counts. -/
inductive Carried (found : Directives) (groups : List AttributeGroup) : Text → Prop where
  | nothing {line : Text} (holds : HoldsNothing line) : Carried found groups line
  | test {line : Text} (holds : Holds "@test".toList line)
      (carried : Directive.test.toGroup.isIn groups) : Carried found groups line
  | group {line value : Text} (holds : HoldsValue "@group".toList Tag.isGroupChar value line)
      (carried : (Directive.group value).toGroup.isIn groups) : Carried found groups line
  | dataProvider {line method first : Text}
      (holds : HoldsValue "@dataProvider".toList isWordChar method line)
      (counts : found.dataProvider? = some first)
      (carried : (Directive.dataProvider first).toGroup.isIn groups) : Carried found groups line

theorem Carried.occursIn_covers {found : Directives} {groups : List AttributeGroup} {line : Text}
    (carried : Carried found groups line) : Tag.covers.occursIn line = false := by
  have nothing : Tag.covers.findAll line = [] := by
    cases carried with
    | nothing holds => exact Tag.covers_startsWith.findAll_eq_nil holds.at_notMem
    | test holds =>
        exact holds.findAll_eq_nil Tag.covers_valueTag fun _ => Holds.isBlank_of_mem_test
    | group holds =>
        exact HoldsValue.findAll_eq_nil (fun _ => Tag.isBlank_of_isGroupChar) Tag.covers_valueTag
          (fun _ => rfl) (show '@' ∉ "group".toList by decide) holds
    | dataProvider holds =>
        exact HoldsValue.findAll_eq_nil (fun _ => isBlank_of_isWordChar) Tag.covers_valueTag
          (fun _ => rfl) (show '@' ∉ "dataProvider".toList by decide) holds
  rw [Form.occursIn, nothing]
  rfl

variable {doc : Text} {groups : List AttributeGroup}

theorem carried_of_isLineOf {kind : DirectiveKind} {line : Text}
    (inner : line ∈ doc.splitLines.dropLast) (isLine : kind.isLineOf line)
    (present : ∀ directive ∈ (Directives.ofDoc doc).ofKind kind, directive.toGroup.isIn groups) :
    Carried (.ofDoc doc) groups line := by
  cases kind with
  | test =>
      have holds := holds_of_isTestLine isLine
      have found := Directives.test_ofDoc inner holds
      exact .test holds (present _ (by simp [Directives.ofKind, found]))
  | group =>
      obtain ⟨value, holds⟩ := exists_holdsValue_of_isValuedLine isLine
      have found := Directives.mem_groups_ofDoc inner holds
      exact .group holds (present _ (List.mem_map_of_mem found))
  | dataProvider =>
      obtain ⟨method, holds⟩ := exists_holdsValue_of_isValuedLine isLine
      have found := Directives.mem_dataProviders_ofDoc inner holds
      obtain ⟨first, others, all⟩ := List.exists_cons_of_ne_nil (List.ne_nil_of_mem found)
      have counts : (Directives.ofDoc doc).dataProvider? = some first := by
        rw [Directives.dataProvider?, all, List.head?_cons]
      exact .dataProvider holds counts (present _ (by simp [Directives.ofKind, counts]))
  | covers => cases isLine

/-- Stripping kinds whose directives are all there as groups loses nothing. -/
theorem leavesOut_stripDirectives {kinds : List DirectiveKind}
    (present : ∀ kind ∈ kinds, ∀ directive ∈ (Directives.ofDoc doc).ofKind kind,
      directive.toGroup.isIn groups) :
    LeavesOut (fun line => Carried (.ofDoc doc) groups line ∧ Tag.covers.occursIn line = false)
      doc.splitLines (stripDirectives kinds doc).splitLines := by
  rw [splitLines_stripDirectives]
  refine (leavesOut_stripLines doc.splitLines).imp_of_mem ?_
  rintro line - ⟨inner, removable⟩
  have carried : Carried (.ofDoc doc) groups line := by
    rcases Bool.or_eq_true_iff.1 removable with directive | empty
    · obtain ⟨kind, member, isLine⟩ := List.any_eq_true.1 directive
      exact carried_of_isLineOf inner isLine (present kind member)
    · exact .nothing (holdsNothing_of_isEmptyLine empty)
  exact ⟨carried, carried.occursIn_covers⟩

end DocLine

/-! ## Declarations and classes -/

/-- The new declaration differs in its doc comment and its groups only, and the lines that its doc
comment lost are carried by its groups. -/
structure Declaration.KeepsMetadata (old new : Declaration) : Prop where
  rest : new = { old with doc := new.doc, groups := new.groups }
  doc : Option.Rel (fun before after =>
    DocLine.LeavesOut (fun line =>
      DocLine.Carried (.ofDoc before.text) new.groups line ∧ Tag.covers.occursIn line = false)
        before.text.splitLines after.text.splitLines) old.doc new.doc

/-- Every declaration keeps its metadata, and a class proper carries the references to covered
methods that its methods make. -/
structure ClassDecl.KeepsMetadata (old new : ClassDecl) : Prop where
  kind : new.kind = old.kind
  declarations : List.Forall₂ Declaration.KeepsMetadata old.declarations new.declarations
  covers : old.kind = .cls → ∀ method ∈ old.methods, ∀ ref ∈ method.found.covers,
    (Directive.covers ref).toGroup.isIn new.decl.groups

namespace Declaration

variable (decl : Declaration)

theorem keepsMetadata_pushAll_strip (directives : List Directive) (kinds : List DirectiveKind)
    (asked : ∀ kind ∈ kinds, decl.found.ofKind kind ⊆ directives) :
    decl.KeepsMetadata ((decl.pushAll directives).strip kinds) := by
  refine ⟨rfl, ?_⟩
  have present : ∀ kind ∈ kinds, ∀ directive ∈ decl.found.ofKind kind,
      directive.toGroup.isIn (decl.pushAll directives).groups :=
    fun kind member directive found => decl.isIn_pushAll (asked kind member found)
  simp only [found] at present
  simp only [strip, pushAll_doc]
  cases comment : decl.doc with
  | none => exact .none
  | some doc =>
      rw [comment] at present
      exact .some (DocLine.leavesOut_stripDirectives present)

theorem keepsMetadata_self : decl.KeepsMetadata decl := by
  have same := decl.keepsMetadata_pushAll_strip [] [] (by simp)
  rwa [pushAll_nil, strip_nil_kinds] at same

theorem keepsMetadata_migratedMethod : decl.KeepsMetadata decl.migratedMethod :=
  decl.keepsMetadata_pushAll_strip _ _ fun kind _ => decl.found.ofKind_subset_onMethod kind

theorem keepsMetadata_migratedOwn (covered : List Directive) :
    decl.KeepsMetadata (decl.migratedOwn.pushAll covered) := by
  rw [migratedOwn, pushAll_strip, ← pushAll_append]
  apply decl.keepsMetadata_pushAll_strip
  intro kind member
  have own : kind = .group := by
    simp only [Directives.classKinds] at member
    split at member <;> simp_all
  rw [own]
  exact List.subset_append_left _ _

end Declaration

theorem ClassDecl.keepsMetadata_migrated (decl : ClassDecl) : decl.KeepsMetadata decl.migrated := by
  refine ⟨rfl, .cons ?_ ?_, ?_⟩
  · by_cases proper : decl.kind = .cls
    · rw [decl.migrated_decl_of_cls proper]
      exact decl.decl.keepsMetadata_migratedOwn _
    · rw [decl.migrated_decl_of_not_cls proper]
      exact decl.decl.keepsMetadata_self
  · rw [migrated, List.forall₂_map_right_iff, List.forall₂_same]
    exact fun method _ => method.keepsMetadata_migratedMethod
  · intro proper method member ref covers
    rw [decl.migrated_decl_of_cls proper]
    apply Declaration.isIn_pushAll
    refine List.mem_map_of_mem (List.mem_eraseDups.2 (List.mem_flatMap.2 ?_))
    exact ⟨method, member, covers⟩

/-! ## Units -/

theorem Stmt.topClasses_topMigrated (stmt : Stmt) :
    stmt.topMigrated.topClasses = stmt.topClasses.map ClassDecl.migrated := by
  cases stmt with
  | nspace head body => exact (migratedFrom_bodyMigrated body).flatMap_classes
  | classLike | enclosing | uses | inclusion | declare | other => rfl

namespace SourceUnit

theorem classes_migrate (unit : SourceUnit) :
    unit.migrate.1.classes = unit.classes.map ClassDecl.migrated := by
  simp [migrate_eq, classes, List.flatMap_map, List.map_flatMap, Stmt.topClasses_topMigrated]

/-- Migration loses no metadata of any declaration of a unit. -/
theorem migrate_keeps_metadata (unit : SourceUnit) :
    List.Forall₂ ClassDecl.KeepsMetadata unit.classes unit.migrate.1.classes := by
  rw [classes_migrate, List.forall₂_map_right_iff, List.forall₂_same]
  exact fun decl _ => decl.keepsMetadata_migrated

end SourceUnit

end TagLift
