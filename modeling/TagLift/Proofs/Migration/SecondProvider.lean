import TagLift.Proofs.Migration.Metadata
import TagLift.Proofs.Migration.Rerun

/-!
# The data provider of a second migration

A migration takes the first data provider of a method and strips the lines that hold nothing but
one. A provider with more text on its line, or on the first or the last line of the comment, is
found but stays, so it may be the first one when the method is migrated again. That is all that a
second migration can add: exactly the methods with such a provider gain a group, unless they have
that group by then.
-/

namespace TagLift

/-! ## Providers that stripping keeps -/

namespace DocLine

/-- The lines of a doc comment but for the inner ones that hold nothing but a data provider. -/
def withoutProviderLines : List Text → List Text
  | [] => []
  | [line] => [line]
  | first :: second :: rest =>
      first :: (second :: rest).dropLast.filter (!isDataProviderLine ·) ++
        [(second :: rest).getLastD []]

theorem withoutProviderLines_append (first last : Text) (inner : List Text) :
    withoutProviderLines (first :: inner ++ [last]) =
      first :: inner.filter (!isDataProviderLine ·) ++ [last] := by
  cases inner with
  | nil => simp [withoutProviderLines]
  | cons second rest =>
      have inner : (second :: rest ++ [last]).dropLast = second :: rest := List.dropLast_concat
      have final : (second :: rest ++ [last]).getLastD [] = last := List.getLastD_concat ..
      rw [List.cons_append] at inner final
      simp only [withoutProviderLines, List.cons_append, inner, final]

/-- No line that is stripped holds a data provider but the data provider lines. -/
theorem findAll_dataProvider_eq_nil {kinds : List DirectiveKind} {line : Text}
    (removable : isDirectiveLine kinds line || isEmptyLine line)
    (other : isDataProviderLine line = false) :
    Tag.dataProvider.findAll (Text.dropReturn line) = [] := by
  have valueTag : Tag.dataProvider.ValueTag :=
    Tag.valued_valueTag "dataProvider".toList fun _ => isBlank_of_isWordChar
  rcases Bool.or_eq_true_iff.1 removable with directive | empty
  · obtain ⟨kind, -, isLine⟩ := List.any_eq_true.1 directive
    cases kind with
    | test =>
        exact ((holds_of_isTestLine isLine).dropReturn rfl (by decide)).findAll_eq_nil valueTag
          fun _ => Holds.isBlank_of_mem_test
    | group =>
        obtain ⟨value, holds⟩ := exists_holdsValue_of_isValuedLine isLine
        exact HoldsValue.findAll_eq_nil (fun _ => Tag.isBlank_of_isGroupChar) valueTag
          (fun _ => rfl) (show '@' ∉ "group".toList by decide)
          (holds.dropReturn fun _ => Tag.isBlank_of_isGroupChar)
    | dataProvider =>
        rw [DirectiveKind.isLineOf, other] at isLine
        cases isLine
    | covers => cases isLine
  · refine valueTag.starts.findAll_eq_nil fun member => ?_
    have fewer : (Text.dropReturn line).Sublist line := by
      rw [Text.dropReturn]
      split
      · exact List.dropLast_sublist line
      · exact .refl line
    exact (holdsNothing_of_isEmptyLine empty).at_notMem (fewer.subset member)

/-- Lines left out of a list that hold nothing make no difference, but for those of one form. -/
theorem LeavesOut.flatMap_eq_filter {gone : Text → Prop} {old new : List Text}
    (out : LeavesOut gone old new) (isForm : Text → Bool) {found : Text → List Occurrence}
    (nothing : ∀ line, gone line → isForm line = false → found line = [])
    (none : ∀ line ∈ new, isForm line = false) :
    new.flatMap found = (old.filter (!isForm ·)).flatMap found := by
  induction out with
  | nil => rfl
  | keep line _ ih =>
      obtain ⟨here, later⟩ := List.forall_mem_cons.1 none
      rw [List.flatMap_cons, ih later, List.filter_cons_of_pos (by simp [here]), List.flatMap_cons]
  | @drop line out _ _ _ ih =>
      rw [ih none, List.filter_cons]
      split
      next other => simp [nothing line out (by simpa using other)]
      next => rfl

end DocLine

namespace Directives

/-- The data providers of a doc comment but for those on an inner line of their own. -/
def keptProviders (doc : Text) : List Text :=
  (ofDoc (Text.joinLines (DocLine.withoutProviderLines doc.splitLines))).dataProviders

/-- The tags of a text are found line by line. An empty last line holds none. -/
theorem values_lines (form : Form) {text first last : Text} {inner : List Text}
    (split : text.splitLines = first :: inner ++ [last]) :
    values form (Text.lines text) =
      ((first :: inner).flatMap fun line => form.findAll (Text.dropReturn line)).map
        (·.parts.getD 0 []) ++ (form.findAll last).map (·.parts.getD 0 []) := by
  have final : (first :: inner ++ [last]).getLastD [] = last := List.getLastD_concat ..
  have shown : values form (if last.isEmpty then [] else [last]) =
      (form.findAll last).map (·.parts.getD 0 []) := by
    cases last with
    | nil => rfl
    | cons c last => simp [values]
  rw [Text.lines, split, List.dropLast_concat, final, values, List.flatMap_append, ← shown, values,
    List.flatMap_map, List.map_flatMap]

theorem splitLines_withoutProviderLines {doc first last : Text} {inner : List Text}
    (split : doc.splitLines = first :: inner ++ [last]) :
    (Text.joinLines (DocLine.withoutProviderLines doc.splitLines)).splitLines =
      first :: inner.filter (!DocLine.isDataProviderLine ·) ++ [last] := by
  rw [split, DocLine.withoutProviderLines_append]
  apply Text.splitLines_joinLines (by simp)
  intro line member
  have inDoc : line ∈ doc.splitLines := by
    rw [split]
    exact ((List.filter_sublist.cons_cons first).append_right [last]).subset member
  exact Text.newline_notMem_of_mem_splitLines inDoc

/-- What is found of data providers after stripping: those that are not on a line of their own. -/
theorem dataProviders_stripDirectives {kinds : List DirectiveKind}
    (stripped : .dataProvider ∈ kinds) (doc : Text) :
    (ofDoc (stripDirectives kinds doc)).dataProviders = keptProviders doc := by
  match lines : doc.splitLines with
  | [] => exact absurd lines (doc.splitOn_ne_nil '\n')
  | [line] =>
      rw [keptProviders, stripDirectives, lines]
      rfl
  | first :: second :: rest =>
      obtain ⟨inner, last, split⟩ := DocLine.exists_inner first second rest
      rw [split] at lines
      have after : (stripDirectives kinds doc).splitLines =
          first :: DocLine.settle kinds true [] inner ++ [last] := by
        rw [splitLines_stripDirectives, lines, DocLine.stripLines_append]
      have inside : ((DocLine.settle kinds true [] inner).flatMap fun line =>
          Tag.dataProvider.findAll (Text.dropReturn line)) =
          (inner.filter (!DocLine.isDataProviderLine ·)).flatMap fun line =>
            Tag.dataProvider.findAll (Text.dropReturn line) := by
        apply (DocLine.leavesOut_settle true inner (List.forall_mem_nil _)).flatMap_eq_filter
          DocLine.isDataProviderLine
        · exact fun line removable other => DocLine.findAll_dataProvider_eq_nil removable other
        · intro line member
          have stays := DocLine.stays_of_mem_settle member
          exact Bool.eq_false_iff.2 (List.any_eq_false.1 stays .dataProvider stripped)
      simp only [ofDoc, keptProviders]
      rw [values_lines _ after, values_lines _ (splitLines_withoutProviderLines lines),
        List.flatMap_cons, List.flatMap_cons, inside]

theorem keptProviders_sublist (doc : Text) :
    (keptProviders doc).Sublist (ofDoc doc).dataProviders := by
  rw [← dataProviders_stripDirectives (List.mem_singleton_self DirectiveKind.dataProvider)]
  exact (ofDoc_stripDirectives_within _ doc).dataProviders

end Directives

/-! ## The second migration -/

namespace Declaration

/-- The declaration with the group for a data provider at the end, if there is one to add. -/
def withProvider (decl : Declaration) (provider : Option Text) : Declaration :=
  { decl with
    groups := decl.groups ++ provider.toList.map fun method =>
      (Directive.dataProvider method).toGroup }

/-- The data provider that a second migration would add: the first one that stripping keeps,
unless the method has a group for it after the first migration. -/
def secondProvider? (decl : Declaration) : Option Text :=
  (decl.doc.bind fun doc => (Directives.keptProviders doc.text).head?).filter fun method =>
    !(Directive.dataProvider method).toGroup.isIn decl.migratedMethod.groups

@[simp] theorem withProvider_none (decl : Declaration) : decl.withProvider none = decl := by
  simp [withProvider]

theorem withProvider_eq_self_iff {decl : Declaration} {provider : Option Text} :
    decl.withProvider provider = decl ↔ provider = none := by
  constructor
  · intro same
    have groups := congrArg groups same
    cases provider with
    | none => rfl
    | some method => simp [withProvider] at groups
  · rintro rfl
    exact decl.withProvider_none

/-- After a migration the first data provider is the first one that stripping keeps. -/
theorem dataProvider?_migratedMethod (decl : Declaration) :
    decl.migratedMethod.found.dataProvider? =
      decl.doc.bind fun doc => (Directives.keptProviders doc.text).head? := by
  obtain ⟨name, span, anchor, doc, groups⟩ := decl
  cases doc with
  | none => rfl
  | some doc =>
      change (Directives.ofDoc (stripDirectives (Directives.ofDoc doc.text).methodKinds
        doc.text)).dataProviders.head? = (Directives.keptProviders doc.text).head?
      by_cases none : (Directives.ofDoc doc.text).dataProviders = []
      · have fewer := (Directives.ofDoc_stripDirectives_within
          (Directives.ofDoc doc.text).methodKinds doc.text).dataProviders
        have kept := Directives.keptProviders_sublist doc.text
        rw [none, List.sublist_nil] at fewer kept
        rw [fewer, kept]
      · have stripped : .dataProvider ∈ (Directives.ofDoc doc.text).methodKinds :=
          Directives.mem_methodKinds.2 (.inr (.inr ⟨rfl, none⟩))
        rw [Directives.dataProviders_stripDirectives stripped]

theorem migratedMethod_migratedMethod (decl : Declaration) :
    decl.migratedMethod.migratedMethod = decl.migratedMethod.withProvider decl.secondProvider? := by
  rw [migratedMethod_migratedMethod_eq_pushAll, secondProvider?, ← dataProvider?_migratedMethod]
  cases decl.migratedMethod.found.dataProvider? with
  | none => simp
  | some method =>
      rw [Option.filter_some]
      by_cases present : (Directive.dataProvider method).toGroup.isIn decl.migratedMethod.groups
      · simp [pushAll, AttributeGroup.pushUnique, present]
      · simp [pushAll, AttributeGroup.pushUnique, present, withProvider]

end Declaration

namespace ClassDecl

/-- A migrated class with the groups that a second migration adds to its methods. -/
def withSecondProviders (decl : ClassDecl) : ClassDecl :=
  { decl.migrated with
    methods := decl.methods.map fun method =>
      method.migratedMethod.withProvider method.secondProvider? }

theorem migrated_migrated (decl : ClassDecl) :
    decl.migrated.migrated = decl.withSecondProviders := by
  have own := decl.migrated_sameButProviders.decl
  have methods : decl.migrated.migrated.methods = decl.withSecondProviders.methods := by
    simp [migrated, withSecondProviders, Declaration.migratedMethod_migratedMethod]
  calc decl.migrated.migrated
      = ⟨decl.kind, decl.migrated.migrated.decl, decl.migrated.migrated.methods⟩ := rfl
    _ = decl.withSecondProviders := by rw [own, methods]; rfl

theorem withSecondProviders_eq_migrated_iff (decl : ClassDecl) :
    decl.withSecondProviders = decl.migrated ↔
      ∀ method ∈ decl.methods, method.secondProvider? = none := by
  constructor
  · intro same method member
    have methods := congrArg methods same
    exact Declaration.withProvider_eq_self_iff.1 (List.map_inj_left.1 methods method member)
  · intro none
    have methods : decl.withSecondProviders.methods = decl.migrated.methods := by
      apply List.map_congr_left
      intro method member
      rw [none method member, Declaration.withProvider_none]
    calc decl.withSecondProviders
        = ⟨decl.kind, decl.migrated.decl, decl.withSecondProviders.methods⟩ := rfl
      _ = decl.migrated := by rw [methods]; rfl

end ClassDecl

namespace SourceUnit

/-- Two migrations give every method the group for its second provider and change nothing else in
the classes. So the second one adds a data provider exactly if a method has a second provider: the
first of those that the first migration found and kept, without a group for it. -/
theorem classes_migrate_again (unit : SourceUnit) :
    unit.migrate.1.migrate.1.classes = unit.classes.map ClassDecl.withSecondProviders ∧
      (unit.migrate.1.migrate.1.classes = unit.migrate.1.classes ↔
        ∀ decl ∈ unit.classes, ∀ method ∈ decl.methods, method.secondProvider? = none) := by
  have again : unit.migrate.1.migrate.1.classes =
      unit.classes.map ClassDecl.withSecondProviders := by
    rw [classes_migrate, classes_migrate, List.map_map]
    exact List.map_congr_left fun decl _ => decl.migrated_migrated
  refine ⟨again, ?_⟩
  rw [again, classes_migrate, List.map_inj_left]
  exact forall₂_congr fun decl _ => decl.withSecondProviders_eq_migrated_iff

/-- Behind a provider on a line of its own stands one with text after it. The first migration takes
the one and keeps the other, and the second migration takes the other. -/
theorem second_provider_added :
    ∃ (unit : SourceUnit) (once twice : Declaration),
      unit.migrate.1.classes.flatMap (·.methods) = [once] ∧
      unit.migrate.1.migrate.1.classes.flatMap (·.methods) = [twice] ∧
      once.groups = [(Directive.dataProvider "a".toList).toGroup] ∧
      twice.groups = once.groups ++ [(Directive.dataProvider "b".toList).toGroup] := by
  let doc := "/**\n * @dataProvider a\n * @dataProvider b with more\n */".toList
  let method : Declaration := ⟨['m'], ⟨80, 90⟩, 80, some ⟨some ⟨20, 79⟩, doc⟩, []⟩
  let unit : SourceUnit :=
    ⟨[.classLike ⟨.cls, ⟨['C'], ⟨6, 95⟩, 6, none, []⟩, [method]⟩], 5, []⟩
  refine ⟨unit, method.migratedMethod, method.migratedMethod.migratedMethod, ?_, ?_, ?_, ?_⟩
  all_goals decide +kernel

end SourceUnit

end TagLift
