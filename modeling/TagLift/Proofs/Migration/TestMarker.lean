import TagLift.Proofs.Migration.Metadata

/-!
# Tests marked by an attribute

A method whose doc comment marks it as a test gets the group `#[Test]`, unless a group of this one
attribute is there. Groups are compared as wholes, so a `Test` among other attributes of one group
is not seen, and the method then has the attribute twice.
-/

namespace TagLift

/-- Whether an attribute is `Test` without arguments. -/
def Attribute.isBareTest (attr : Attribute) : Bool :=
  attr.name == "Test".toList && attr.args.isEmpty

namespace AttributeGroup

/-- Whether a group is `#[Test]` and nothing else. -/
def isLoneTest (group : AttributeGroup) : Bool :=
  group.attributes.length == 1 && group.attributes.all Attribute.isBareTest

/-- How many attributes of some groups are `Test` without arguments. -/
def bareTests (groups : List AttributeGroup) : Nat :=
  (groups.flatMap (·.attributes)).countP Attribute.isBareTest

end AttributeGroup

namespace Declaration

/-- How many attributes of a declaration are `Test` without arguments, over all its groups. -/
def bareTests (decl : Declaration) : Nat :=
  AttributeGroup.bareTests decl.groups

/-- Whether a declaration has a group that is `#[Test]` and nothing else. -/
def hasLoneTest (decl : Declaration) : Bool :=
  decl.groups.any AttributeGroup.isLoneTest

end Declaration

/-! ## The group of a directive -/

namespace Directive

theorem bareTests_toGroup (directive : Directive) :
    AttributeGroup.bareTests [directive.toGroup] = if directive = .test then 1 else 0 := by
  cases directive with
  | test | group | dataProvider | covers => rfl

theorem isLoneTest_toGroup (directive : Directive) :
    directive.toGroup.isLoneTest = decide (directive = .test) := by
  cases directive with
  | test | group | dataProvider | covers => rfl

theorem same_bareTest (attr : Attribute) :
    Attribute.same ⟨Directive.test.shortName, []⟩ attr = attr.isBareTest := by
  obtain ⟨name, args⟩ := attr
  rw [Attribute.same, Attribute.isBareTest, Bool.beq_comm]
  cases args with
  | nil => rfl
  | cons arg args => rfl

/-- The guard against a second group for a test looks for a group of this one attribute. -/
theorem isIn_toGroup_test (groups : List AttributeGroup) :
    Directive.test.toGroup.isIn groups = groups.any AttributeGroup.isLoneTest := by
  have same : Directive.test.toGroup.same = AttributeGroup.isLoneTest := by
    funext group
    obtain ⟨span, attributes⟩ := group
    cases attributes with
    | nil => rfl
    | cons attr attributes =>
        cases attributes with
        | nil =>
            simp only [toGroup, values, AttributeGroup.single, AttributeGroup.same,
              AttributeGroup.isLoneTest, List.map_nil, List.zip_cons_cons, List.zip_nil_left,
              List.all_cons, List.all_nil, same_bareTest]
            rfl
        | cons second rest => simp [toGroup, AttributeGroup.single, AttributeGroup.same,
            AttributeGroup.isLoneTest]
  rw [AttributeGroup.isIn, same]

end Directive

/-! ## Pushing the groups of directives -/

namespace AttributeGroup

theorem bareTests_append (left right : List AttributeGroup) :
    bareTests (left ++ right) = bareTests left + bareTests right := by
  simp [bareTests]

theorem bareTests_pos_of_isLoneTest {groups : List AttributeGroup}
    (lone : groups.any isLoneTest) : 0 < bareTests groups := by
  obtain ⟨group, member, single⟩ := List.any_eq_true.1 lone
  simp only [isLoneTest, Bool.and_eq_true, beq_iff_eq] at single
  obtain ⟨attr, equal⟩ := List.length_eq_one_iff.1 single.1
  rw [bareTests, List.countP_pos_iff]
  refine ⟨attr, List.mem_flatMap.2 ⟨group, member, by simp [equal]⟩, ?_⟩
  simpa [equal] using single.2

/-- Pushing the group of one directive adds a test exactly if the directive is one and no group is
`#[Test]` alone. -/
theorem bareTests_pushUnique (groups : List AttributeGroup) (directive : Directive) :
    bareTests (pushUnique groups directive.toGroup) =
      bareTests groups +
        if directive = .test ∧ groups.any isLoneTest = false then 1 else 0 := by
  by_cases isTest : directive = .test
  · subst isTest
    rw [pushUnique, Directive.isIn_toGroup_test]
    cases present : groups.any isLoneTest with
    | true => simp
    | false => simp [bareTests_append, Directive.bareTests_toGroup]
  · obtain ⟨added, equal, fewer⟩ := pushUnique_eq_append groups directive.toGroup
    have none : bareTests added = 0 := by
      have each := directive.bareTests_toGroup
      rw [if_neg isTest, bareTests, List.countP_eq_zero] at each
      rw [bareTests, List.countP_eq_zero]
      intro attr member
      obtain ⟨group, inAdded, inGroup⟩ := List.mem_flatMap.1 member
      exact each attr (List.mem_flatMap.2 ⟨group, fewer inAdded, inGroup⟩)
    rw [equal, bareTests_append, none]
    simp [isTest]

theorem any_isLoneTest_pushUnique (groups : List AttributeGroup) (directive : Directive) :
    (pushUnique groups directive.toGroup).any isLoneTest =
      (groups.any isLoneTest || decide (directive = .test)) := by
  rw [pushUnique]
  split
  next present =>
    by_cases isTest : directive = .test
    · rw [isTest, Directive.isIn_toGroup_test] at present
      simp [present]
    · simp [isTest]
  next => simp [Directive.isLoneTest_toGroup]

/-- Pushing the groups of directives adds at most one test: for the first directive that is one, if
no group is `#[Test]` alone by then. -/
theorem bareTests_foldl_pushUnique (directives : List Directive) (groups : List AttributeGroup) :
    bareTests ((directives.map Directive.toGroup).foldl pushUnique groups) =
      bareTests groups +
        if .test ∈ directives ∧ groups.any isLoneTest = false then 1 else 0 := by
  induction directives generalizing groups with
  | nil => simp
  | cons directive directives ih =>
      rw [List.map_cons, List.foldl_cons, ih, bareTests_pushUnique, any_isLoneTest_pushUnique]
      by_cases isTest : directive = .test
      · simp [isTest]
      · simp [isTest, Ne.symm isTest]

end AttributeGroup

/-! ## Marked methods -/

/-- A marked method gains one test, unless a group is `#[Test]` alone. -/
theorem Declaration.bareTests_migratedMethod {method : Declaration} (marked : method.found.test) :
    method.migratedMethod.bareTests =
      method.bareTests + if method.hasLoneTest then 0 else 1 := by
  have asked : .test ∈ method.found.onMethod := by
    simp [Directives.onMethod, marked]
  have pushed := AttributeGroup.bareTests_foldl_pushUnique method.found.onMethod method.groups
  simp only [asked, true_and] at pushed
  rw [bareTests, migratedMethod, strip_groups, pushAll, pushed, bareTests, hasLoneTest]
  cases method.groups.any AttributeGroup.isLoneTest with
  | true => rfl
  | false => rfl

namespace SourceUnit

/-- A method that is marked as a test and has at most one attribute `Test` without arguments has
exactly one after the migration, unless the one it has stands in a group with other attributes: a
group of its own is then added, and the method has two. -/
theorem bareTests_migrate (unit : SourceUnit) (classIndex methodIndex : Nat) {decl : ClassDecl}
    {method : Declaration} (declared : unit.classes[classIndex]? = some decl)
    (member : decl.methods[methodIndex]? = some method) (marked : method.found.test)
    (few : method.bareTests ≤ 1) :
    ∃ newDecl newMethod, unit.migrate.1.classes[classIndex]? = some newDecl ∧
      newDecl.methods[methodIndex]? = some newMethod ∧
      newMethod.bareTests =
        if method.bareTests = 1 ∧ method.hasLoneTest = false then 2 else 1 := by
  refine ⟨decl.migrated, method.migratedMethod, ?_, ?_, ?_⟩
  · rw [classes_migrate, List.getElem?_map, declared, Option.map_some]
  · rw [ClassDecl.migrated, List.getElem?_map, member, Option.map_some]
  · rw [Declaration.bareTests_migratedMethod marked]
    cases lone : method.hasLoneTest with
    | true =>
        have some : 0 < method.bareTests := AttributeGroup.bareTests_pos_of_isLoneTest lone
        simp only [if_true, Bool.true_eq_false, and_false, if_false]
        omega
    | false =>
        simp only [Bool.false_eq_true, if_false, and_true]
        split <;> omega

/-- A method with the test attribute in a group of its own, behind another group, keeps its one. -/
theorem bareTests_migrate_of_lone_test :
    ∃ (unit : SourceUnit) (decl : ClassDecl) (method : Declaration),
      unit.classes[0]? = some decl ∧ decl.methods[0]? = some method ∧ method.found.test ∧
      method.bareTests ≤ 1 ∧ method.hasLoneTest ∧
      ∃ newDecl newMethod, unit.migrate.1.classes[0]? = some newDecl ∧
        newDecl.methods[0]? = some newMethod ∧ newMethod.bareTests = 1 := by
  let doc := "/**\n * @group db\n * @test\n */".toList
  let groups : List AttributeGroup :=
    [⟨some ⟨50, 64⟩, [⟨"Group".toList, [.positional (.string "a".toList none)]⟩]⟩,
      ⟨some ⟨65, 72⟩, [⟨"Test".toList, []⟩]⟩]
  let method : Declaration := ⟨['m'], ⟨50, 90⟩, 73, some ⟨some ⟨16, 49⟩, doc⟩, groups⟩
  let decl : ClassDecl := ⟨.trait, ⟨['T'], ⟨6, 95⟩, 6, none, []⟩, [method]⟩
  let unit : SourceUnit := ⟨[.classLike decl], 5, []⟩
  have marked : method.found.test := by decide +kernel
  exact ⟨unit, decl, method, rfl, rfl, marked, by decide, by decide,
    bareTests_migrate unit 0 0 rfl rfl marked (by decide)⟩

/-- In one group with another attribute the test is not seen, and the method gets a second one. -/
theorem grouped_test_added_again :
    ∃ (unit : SourceUnit) (old new : Declaration),
      unit.classes.flatMap (·.methods) = [old] ∧
      unit.migrate.1.classes.flatMap (·.methods) = [new] ∧
      old.found.test ∧ old.bareTests = 1 ∧ new.bareTests = 2 := by
  let group : AttributeGroup :=
    ⟨some ⟨136, 155⟩, [⟨"Test".toList, []⟩,
      ⟨"Group".toList, [.positional (.string "x".toList (some "'x'".toList))]⟩]⟩
  let doc : DocComment := ⟨some ⟨107, 131⟩, "/**\n     * @test\n     */".toList⟩
  let method : Declaration := ⟨['a'], ⟨136, 188⟩, 160, some doc, [group]⟩
  let unit : SourceUnit :=
    ⟨[.classLike ⟨.cls, ⟨"FooTest".toList, ⟨87, 190⟩, 87, none, []⟩, [method]⟩], 5, []⟩
  refine ⟨unit, method, method.migratedMethod, rfl, ?_, ?_, ?_, ?_⟩
  all_goals decide +kernel

end SourceUnit

end TagLift
