import TagLift.Proofs.Attribute.Same
import TagLift.Proofs.Migration.Metadata
import Mathlib.Data.List.Induction

/-!
# Values of group attributes

A declaration without attribute groups gets one `Group` attribute for each `@group` of its doc
comment, in order. A value counts as present if it differs from an earlier one in double quotes at
its ends only, since these are trimmed when arguments are compared; the earlier value then stands
for both.
-/

namespace TagLift

/-- The value of a `Group` attribute with one string. -/
def Attribute.groupValue? (attr : Attribute) : Option Text :=
  match attr.args with
  | [⟨_, .string value _⟩] => if attr.name = "Group".toList then some value else none
  | _ => none

/-- The values of the `Group` attributes of a group. -/
def AttributeGroup.groupValues (group : AttributeGroup) : List Text :=
  group.attributes.filterMap Attribute.groupValue?

/-- The values of the `Group` attributes of a declaration, in order. -/
def Declaration.groupValues (decl : Declaration) : List Text :=
  decl.groups.flatMap AttributeGroup.groupValues

/-! ## Groups that are kept -/

namespace AttributeGroup

/-- Groups pushed in turn onto nothing are kept in order. -/
theorem foldl_pushUnique_sublist (pushed : List AttributeGroup) :
    (pushed.foldl pushUnique []).Sublist pushed := by
  induction pushed using List.reverseRecOn with
  | nil => exact .slnil
  | append_singleton pushed group ih =>
      rw [List.foldl_append, List.foldl_cons, List.foldl_nil, pushUnique]
      split
      · exact ih.trans (List.sublist_append_left _ _)
      · exact ih.append (.refl _)

theorem isIn_foldl_pushUnique_iff (pushed : List AttributeGroup) (group : AttributeGroup) :
    group.isIn (pushed.foldl pushUnique []) ↔ ∃ other ∈ pushed, group.same other := by
  rw [isIn, List.any_eq_true]
  constructor
  · rintro ⟨other, kept, same⟩
    exact ⟨other, (foldl_pushUnique_sublist pushed).subset kept, same⟩
  · rintro ⟨other, member, same⟩
    obtain ⟨first, kept, same'⟩ := List.any_eq_true.1 (isIn_foldl_pushUnique member [])
    exact ⟨first, kept, equivalence_same.trans same same'⟩

/-- A group is kept exactly if it is the first of those that are the same. -/
theorem mem_foldl_pushUnique_iff (pushed : List AttributeGroup) (group : AttributeGroup) :
    group ∈ pushed.foldl pushUnique [] ↔ pushed.find? group.same = some group := by
  induction pushed using List.reverseRecOn with
  | nil => simp
  | append_singleton pushed last ih =>
      have absent (new : ¬last.isIn (pushed.foldl pushUnique [])) :
          ∀ other ∈ pushed, ¬last.same other := fun other member same =>
        new ((isIn_foldl_pushUnique_iff pushed last).2 ⟨other, member, same⟩)
      rw [List.foldl_append, List.foldl_cons, List.foldl_nil, pushUnique, List.find?_append]
      cases found : pushed.find? group.same with
      | some first =>
          rw [found] at ih
          split
          · exact ih
          next new =>
            have other : group ≠ last := by
              rintro rfl
              exact absent new first (List.mem_of_find?_eq_some found) (List.find?_some found)
            simpa [other] using ih
      | none =>
          rw [found] at ih
          have dropped : group ∉ pushed.foldl pushUnique [] := by simp [ih]
          have alone : [last].find? group.same = some group ↔ group = last := by
            by_cases equal : group = last
            · simp [equal, same_self]
            · have other : last ≠ group := Ne.symm equal
              cases same : group.same last <;> simp [same, equal, other]
          rw [Option.none_or, alone]
          split
          next present =>
            obtain ⟨other, member, same⟩ := (isIn_foldl_pushUnique_iff pushed last).1 present
            refine ⟨fun kept => absurd kept dropped, ?_⟩
            rintro rfl
            exact absurd same (List.find?_eq_none.1 found other member)
          next => simp [dropped]

end AttributeGroup

/-! ## Groups of directives -/

namespace Directive

/-- The value of a directive that puts into a group. -/
def groupValue? : Directive → Option Text
  | .group value => some value
  | _ => none

theorem groupValues_toGroup (directive : Directive) :
    directive.toGroup.groupValues = directive.groupValue?.toList := by
  cases directive with
  | test | group | dataProvider | covers => rfl

theorem key_toGroup (directive : Directive) :
    directive.toGroup.key = [(directive.shortName, directive.values.map Expr.canonical)] := by
  simp only [AttributeGroup.key, toGroup, AttributeGroup.single, Attribute.key, List.map_map,
    List.map_cons, List.map_nil]
  rfl

theorem shortName_eq_of_same {left right : Directive} (same : left.toGroup.same right.toGroup) :
    left.shortName = right.shortName := by
  rw [AttributeGroup.same_iff, key_toGroup, key_toGroup] at same
  exact congrArg Prod.fst (List.cons.inj same).1

theorem shortName_ne_of_groupValue?_eq_none {directive : Directive}
    (other : directive.groupValue? = none) (value : Text) :
    (Directive.group value).shortName ≠ directive.shortName := by
  cases directive with
  | group => cases other
  | test => exact (by decide : "Group".toList ≠ "Test".toList)
  | dataProvider => exact (by decide : "Group".toList ≠ "DataProvider".toList)
  | covers => exact (by decide : "Group".toList ≠ "CoversMethod".toList)

theorem same_group_group (value other : Text) :
    (Directive.group value).toGroup.same (Directive.group other).toGroup =
      (other.unquoted == value.unquoted) := by
  have named : (Directive.group value).shortName = (Directive.group other).shortName := rfl
  rw [Bool.eq_iff_iff, AttributeGroup.same_iff, key_toGroup, key_toGroup, named]
  simp only [values, List.map_cons, List.map_nil, List.cons.injEq, Prod.mk.injEq, and_true,
    true_and, Expr.canonical_string_eq_iff, beq_iff_eq]
  exact eq_comm

/-- A directive counts as there for a group if it names the same one but for double quotes at the
ends of the value. -/
theorem same_toGroup_group (value : Text) (directive : Directive) :
    (Directive.group value).toGroup.same directive.toGroup =
      directive.groupValue?.any (·.unquoted == value.unquoted) := by
  cases shown : directive.groupValue? with
  | none =>
      refine Bool.eq_false_iff.2 fun same => ?_
      exact shortName_ne_of_groupValue?_eq_none shown value (shortName_eq_of_same same)
  | some other =>
      cases directive with
      | group => exact Option.some.inj shown ▸ same_group_group value _
      | test | dataProvider | covers => cases shown

theorem find?_same_toGroup (value : Text) (directives : List Directive) :
    (directives.map toGroup).find? (Directive.group value).toGroup.same =
      ((directives.filterMap groupValue?).find? (·.unquoted == value.unquoted)).map
        fun other => (Directive.group other).toGroup := by
  induction directives with
  | nil => rfl
  | cons directive directives ih =>
      rw [List.map_cons, List.find?_cons, ih, same_toGroup_group]
      cases directive with
      | group other =>
          have shown : (Directive.group other).groupValue? = some other := rfl
          rw [List.filterMap_cons_some shown, List.find?_cons, shown, Option.any_some]
          split <;> rfl
      | test | dataProvider | covers => rfl

theorem toGroup_group_injective {value other : Text}
    (equal : (Directive.group value).toGroup = (Directive.group other).toGroup) :
    value = other := by
  have values := congrArg AttributeGroup.groupValues equal
  simpa [groupValues_toGroup, groupValue?] using values

/-- Among the groups of directives a value has one group only. -/
theorem mem_flatMap_groupValues_iff {groups : List AttributeGroup}
    (made : ∀ group ∈ groups, ∃ directive : Directive, directive.toGroup = group) (value : Text) :
    value ∈ groups.flatMap AttributeGroup.groupValues ↔
      (Directive.group value).toGroup ∈ groups := by
  rw [List.mem_flatMap]
  constructor
  · rintro ⟨group, member, named⟩
    obtain ⟨directive, rfl⟩ := made group member
    rw [groupValues_toGroup] at named
    cases directive with
    | group other =>
        obtain rfl : value = other := by simpa [groupValue?] using named
        exact member
    | test | dataProvider | covers => cases named
  · exact fun member => ⟨_, member, by simp [groupValues_toGroup, groupValue?]⟩

end Directive

namespace Declaration

/-- The new declaration has the groups that the old one's doc comment names as values of `Group`
attributes, in order, each exactly if no earlier one that differs in double quotes at the ends only
stands for it. -/
structure CarriesGroups (old new : Declaration) : Prop where
  inOrder : new.groupValues.Sublist old.found.groups
  carried : ∀ value, value ∈ new.groupValues ↔
    old.found.groups.find? (·.unquoted == value.unquoted) = some value

theorem carriesGroups_pushAll {decl new : Declaration} {directives : List Directive}
    (bare : decl.groups = []) (pushed : new.groups = (decl.pushAll directives).groups)
    (asked : directives.filterMap Directive.groupValue? = decl.found.groups) :
    decl.CarriesGroups new := by
  have groups :
      new.groups = (directives.map Directive.toGroup).foldl AttributeGroup.pushUnique [] := by
    rw [pushed, pushAll, bare]
  have kept : new.groups.Sublist (directives.map Directive.toGroup) := by
    rw [groups]
    exact AttributeGroup.foldl_pushUnique_sublist _
  constructor
  · have values := kept.flatMap AttributeGroup.groupValues
    simp only [List.flatMap_map, Directive.groupValues_toGroup] at values
    rwa [← List.filterMap_eq_flatMap_toList, asked] at values
  · intro value
    have made : ∀ group ∈ new.groups, ∃ directive : Directive, directive.toGroup = group :=
      fun group member => by
        obtain ⟨directive, -, equal⟩ := List.mem_map.1 (kept.subset member)
        exact ⟨directive, equal⟩
    rw [groupValues, Directive.mem_flatMap_groupValues_iff made, groups,
      AttributeGroup.mem_foldl_pushUnique_iff, Directive.find?_same_toGroup, asked,
      Option.map_eq_some_iff]
    constructor
    · rintro ⟨other, found, equal⟩
      exact Directive.toGroup_group_injective equal ▸ found
    · exact fun found => ⟨value, found, rfl⟩

theorem carriesGroups_migratedMethod {decl : Declaration} (bare : decl.groups = []) :
    decl.CarriesGroups decl.migratedMethod := by
  refine carriesGroups_pushAll bare rfl ?_
  have groups (values : List Text) :
      (values.map Directive.group).filterMap Directive.groupValue? = values := by
    simp [List.filterMap_map, Function.comp_def, Directive.groupValue?]
  have provider (values : List Text) :
      (values.map Directive.dataProvider).filterMap Directive.groupValue? = [] := by
    simp [Directive.groupValue?]
  rw [Directives.onMethod, List.filterMap_append, List.filterMap_append, groups, provider]
  split <;> simp [Directive.groupValue?]

theorem carriesGroups_migratedOwn {decl : Declaration} (bare : decl.groups = [])
    (refs : List CoversRef) :
    decl.CarriesGroups (decl.migratedOwn.pushAll (refs.map .covers)) := by
  have pushed := decl.pushAll_append decl.found.onClass (refs.map .covers)
  refine carriesGroups_pushAll bare (congrArg groups pushed).symm ?_
  simp [Directives.onClass, List.filterMap_map, Function.comp_def, Directive.groupValue?]

end Declaration

/-! ## Units -/

/-- What is migrated of a class carries its groups, if it had no attribute group before. -/
structure ClassDecl.CarriesGroups (old new : ClassDecl) : Prop where
  own : old.kind = .cls → old.decl.groups = [] → old.decl.CarriesGroups new.decl
  methods : List.Forall₂
    (fun method newMethod => method.groups = [] → method.CarriesGroups newMethod)
    old.methods new.methods

namespace SourceUnit

/-- Every declaration that a migration visits and that had no attribute group carries the values of
its `@group` tags, but for those that an earlier one stands for. -/
theorem migrate_carries_groups (unit : SourceUnit) :
    List.Forall₂ ClassDecl.CarriesGroups unit.classes unit.migrate.1.classes := by
  rw [classes_migrate, List.forall₂_map_right_iff, List.forall₂_same]
  intro decl _
  constructor
  · intro proper bare
    rw [decl.migrated_decl_of_cls proper]
    exact Declaration.carriesGroups_migratedOwn bare _
  · rw [ClassDecl.migrated, List.forall₂_map_right_iff, List.forall₂_same]
    exact fun method _ => Declaration.carriesGroups_migratedMethod

/-- A group in double quotes is lost behind the same one without them. -/
theorem quoted_group_not_carried :
    ∃ (unit : SourceUnit) (old new : Declaration),
      unit.classes.flatMap (·.methods) = [old] ∧
      unit.migrate.1.classes.flatMap (·.methods) = [new] ∧ old.groups = [] ∧
      old.found.groups = ["slow".toList, "\"slow\"".toList] ∧
      new.groupValues = ["slow".toList] := by
  let doc := "/**\n     * @group slow\n     * @group \"slow\"\n     */".toList
  let method : Declaration := ⟨['a'], ⟨85, 115⟩, 85, some ⟨some ⟨26, 80⟩, doc⟩, []⟩
  let unit : SourceUnit :=
    ⟨[.classLike ⟨.cls, ⟨"FooTest".toList, ⟨6, 117⟩, 6, none, []⟩, [method]⟩], 5, []⟩
  refine ⟨unit, method, method.migratedMethod, rfl, ?_, rfl, ?_, ?_⟩
  all_goals decide +kernel

end SourceUnit

end TagLift
