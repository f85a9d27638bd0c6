import TagLift.Migration.Basic
import TagLift.Proofs.Doc.Strip
import TagLift.Proofs.Ledger
import TagLift.Proofs.Sorted
import Mathlib.Algebra.Ring.Nat

/-!
# Classes migrated on their own

Every declaration, class and statement gets its migrated form from a function of it alone, with no
ledger: which groups are pushed, which directive lines are stripped, which methods a class covers
and which names its directives require.
-/

namespace TagLift

/-! ## The migrated form of a class -/

namespace Directives

/-- Nothing found. -/
def none : Directives :=
  ⟨false, [], [], []⟩

/-- The kinds of directives that leave the doc comment of a class. -/
def classKinds (found : Directives) : List DirectiveKind :=
  if found.groups.isEmpty then [] else [.group]

end Directives

/-- A doc comment that asks for nothing is one in which nothing was found. -/
theorem Directives.isEmpty_iff (found : Directives) : found.isEmpty ↔ found = .none := by
  obtain ⟨test, groups, covers, dataProviders⟩ := found
  simp [isEmpty, none, and_assoc]

theorem Directives.mem_methodKinds {found : Directives} {kind : DirectiveKind} :
    kind ∈ found.methodKinds ↔ kind = .test ∧ found.test ∨ kind = .group ∧ found.groups ≠ [] ∨
      kind = .dataProvider ∧ found.dataProviders ≠ [] := by
  obtain ⟨test, groups, covers, dataProviders⟩ := found
  cases test <;> cases groups <;> cases dataProviders <;> simp [methodKinds, dataProvider?]

namespace Declaration

/-- What the doc comment of a declaration asks for. -/
def found (decl : Declaration) : Directives :=
  match decl.doc with
  | some doc => .ofDoc doc.text
  | none => .none

/-- The declaration with the groups of the directives appended in turn, each unless the same
group is already there. -/
def pushAll (decl : Declaration) (directives : List Directive) : Declaration :=
  { decl with
    groups := (directives.map Directive.toGroup).foldl AttributeGroup.pushUnique decl.groups }

/-- The declaration with the directive lines of the kinds stripped from its doc comment. -/
def strip (decl : Declaration) (kinds : List DirectiveKind) : Declaration :=
  { decl with doc := decl.doc.map fun doc => { doc with text := stripDirectives kinds doc.text } }

/-- The migrated form of a method. -/
def migratedMethod (decl : Declaration) : Declaration :=
  (decl.pushAll decl.found.onMethod).strip decl.found.methodKinds

/-- The migrated form of a class's own declaration, but for the methods it covers. -/
def migratedOwn (decl : Declaration) : Declaration :=
  (decl.pushAll decl.found.onClass).strip decl.found.classKinds

/-- How many groups a declaration has more than it had. -/
def addedGroups (old new : Declaration) : Nat :=
  new.groups.length - old.groups.length

/-- One if the doc comment changed, else zero. -/
def rewrittenDocs (old new : Declaration) : Nat :=
  if new.doc = old.doc then 0 else 1

end Declaration

namespace ClassDecl

/-- The distinct references to covered methods in the doc comments of the methods, in the order
they are first seen. -/
def coveredRefs (decl : ClassDecl) : List CoversRef :=
  (decl.methods.flatMap (·.found.covers)).eraseDups

/-- What the doc comments of a class ask for: what its own asks for on the class, what those of
its methods ask for on the methods, and last of all the covered methods. Only a class proper takes
attributes itself. -/
def directives (decl : ClassDecl) : List Directive :=
  (if decl.kind = .cls then decl.decl.found.onClass else []) ++
    decl.methods.flatMap (·.found.onMethod) ++
    (if decl.kind = .cls then decl.coveredRefs.map .covers else [])

/-- The migrated form of a class, which depends on nothing but the class. -/
def migrated (decl : ClassDecl) : ClassDecl :=
  { decl with
    decl :=
      if decl.kind = .cls then decl.decl.migratedOwn.pushAll (decl.coveredRefs.map .covers)
      else decl.decl
    methods := decl.methods.map Declaration.migratedMethod }

/-- The declarations of a class: its own and those of its methods. -/
def declarations (decl : ClassDecl) : List Declaration :=
  decl.decl :: decl.methods

/-- A measure of change summed over the declarations of a class. -/
def total (measure : Declaration → Declaration → Nat) (decl : ClassDecl) : Nat :=
  (List.zipWith measure decl.declarations decl.migrated.declarations).sum

/-- A measure of change summed over the declarations of classes. -/
def totals (measure : Declaration → Declaration → Nat) (classes : List ClassDecl) : Nat :=
  (classes.map (total measure)).sum

theorem migrated_decl_of_cls (decl : ClassDecl) (proper : decl.kind = .cls) :
    decl.migrated.decl = decl.decl.migratedOwn.pushAll (decl.coveredRefs.map .covers) := by
  simp [migrated, proper]

theorem migrated_decl_of_not_cls (decl : ClassDecl) (proper : decl.kind ≠ .cls) :
    decl.migrated.decl = decl.decl := by
  simp [migrated, proper]

theorem total_eq (measure : Declaration → Declaration → Nat) (decl : ClassDecl) :
    decl.total measure = measure decl.decl decl.migrated.decl +
      (decl.methods.map fun method => measure method method.migratedMethod).sum := by
  simp [total, declarations, migrated, List.zipWith_map_right]

theorem totals_flatMap {α : Type} (measure : Declaration → Declaration → Nat)
    (classes : α → List ClassDecl) (items : List α) :
    totals measure (items.flatMap classes) =
      (items.map fun item => totals measure (classes item)).sum := by
  induction items with
  | nil => rfl
  | cons item items ih => simp_all [totals]

end ClassDecl

namespace Stmt

/-- The classes that a statement other than a namespace declares. -/
def classes : Stmt → List ClassDecl
  | .classLike decl => [decl]
  | .enclosing _ classes => classes
  | _ => []

/-- The classes that a top-level statement declares. -/
def topClasses : Stmt → List ClassDecl
  | .nspace _ body => body.flatMap classes
  | stmt => stmt.classes

/-- The scope in which the classes of the top-level statement at an index stand. -/
def scope (index : Nat) : Stmt → ImportScope
  | .nspace _ _ => .nspace index
  | _ => .file

theorem index_of_scope_eq_nspace {stmt : Stmt} {index other : Nat}
    (equal : stmt.scope index = .nspace other) : index = other := by
  cases stmt <;> simp_all [scope]

/-- The names that the classes require, each as often as a directive asks for it. -/
def importNames (classes : List ClassDecl) : List Text :=
  (classes.flatMap ClassDecl.directives).map Directive.importName

theorem mem_importNames {classes : List ClassDecl} {name : Text} :
    name ∈ importNames classes ↔
      ∃ decl ∈ classes, ∃ directive ∈ decl.directives, directive.importName = name := by
  simp only [importNames, List.mem_map, List.mem_flatMap]
  constructor
  · rintro ⟨directive, ⟨decl, member, asked⟩, named⟩
    exact ⟨decl, member, directive, asked, named⟩
  · rintro ⟨decl, member, directive, asked, named⟩
    exact ⟨directive, ⟨decl, member, asked⟩, named⟩

/-- The names that the classes require, in order. -/
def requiredNames (classes : List ClassDecl) : List Text :=
  sortUnique Text.compare (importNames classes)

/-- The required names depend on the set of the classes alone. -/
theorem requiredNames_eq_of_mem_iff {classes others : List ClassDecl}
    (same : ∀ decl, decl ∈ classes ↔ decl ∈ others) :
    requiredNames classes = requiredNames others := by
  apply sortUnique_eq_of_mem_iff
  intro name
  simp only [mem_importNames, same]

/-- A statement other than a namespace with its classes migrated. -/
def migrated : Stmt → Stmt
  | .classLike decl => .classLike decl.migrated
  | .enclosing span classes => .enclosing span (classes.map ClassDecl.migrated)
  | stmt => stmt

/-- The body of a namespace with its classes migrated and the imports it misses in front. -/
def bodyMigrated (body : List Stmt) : List Stmt :=
  insertMissing (requiredNames (body.flatMap classes)) (body.map migrated)

/-- A top-level statement with its classes migrated. -/
def topMigrated : Stmt → Stmt
  | .nspace head body => .nspace head (bodyMigrated body)
  | stmt => stmt.migrated

end Stmt

namespace SourceUnit

/-- The classes that a unit declares. -/
def classes (unit : SourceUnit) : List ClassDecl :=
  unit.stmts.flatMap Stmt.topClasses

/-- The classes that a unit declares in a scope. -/
def classesIn (unit : SourceUnit) (scope : ImportScope) : List ClassDecl :=
  unit.stmts.zipIdx.flatMap fun (stmt, index) =>
    if stmt.scope index = scope then stmt.topClasses else []

theorem mem_classesIn {unit : SourceUnit} {scope : ImportScope} {decl : ClassDecl} :
    decl ∈ unit.classesIn scope ↔
      ∃ place ∈ unit.stmts.zipIdx, place.1.scope place.2 = scope ∧ decl ∈ place.1.topClasses := by
  simp [classesIn]

theorem mem_classesIn_file {unit : SourceUnit} {decl : ClassDecl} :
    decl ∈ unit.classesIn .file ↔ decl ∈ unit.stmts.flatMap Stmt.classes := by
  have declared : ∀ (stmt : Stmt) (index : Nat),
      stmt.scope index = .file ∧ decl ∈ stmt.topClasses ↔ decl ∈ stmt.classes := by
    intro stmt index
    cases stmt <;> simp [Stmt.scope, Stmt.topClasses, Stmt.classes]
  simp only [mem_classesIn, declared, List.mem_flatMap]
  constructor
  · rintro ⟨⟨stmt, index⟩, member, inside⟩
    exact ⟨stmt, (List.mem_zipIdx' member).2 ▸ List.getElem_mem _, inside⟩
  · rintro ⟨stmt, member, inside⟩
    obtain ⟨index, bound, rfl⟩ := List.getElem_of_mem member
    exact ⟨(_, index), List.mk_mem_zipIdx_iff_getElem?.2 (List.getElem?_eq_getElem bound), inside⟩

theorem mem_classesIn_nspace {unit : SourceUnit} {head : NamespaceHead}
    {before body after : List Stmt} (split : unit.stmts = before ++ .nspace head body :: after)
    {decl : ClassDecl} :
    decl ∈ unit.classesIn (.nspace before.length) ↔ decl ∈ body.flatMap Stmt.classes := by
  have found : unit.stmts[before.length]? = some (.nspace head body) := by simp [split]
  simp only [mem_classesIn]
  constructor
  · rintro ⟨⟨stmt, index⟩, member, scope, inside⟩
    obtain rfl := Stmt.index_of_scope_eq_nspace scope
    rw [List.mk_mem_zipIdx_iff_getElem?, found, Option.some.injEq] at member
    subst stmt
    exact inside
  · intro inside
    exact ⟨(.nspace head body, before.length), List.mk_mem_zipIdx_iff_getElem?.2 found, rfl, inside⟩

end SourceUnit

/-! ## Appended groups -/

namespace Declaration

variable (decl : Declaration)

@[simp] theorem pushAll_doc (directives : List Directive) :
    (decl.pushAll directives).doc = decl.doc := rfl

@[simp] theorem strip_groups (kinds : List DirectiveKind) :
    (decl.strip kinds).groups = decl.groups := rfl

@[simp] theorem pushAll_nil : decl.pushAll [] = decl := rfl

theorem pushAll_append (first second : List Directive) :
    decl.pushAll (first ++ second) = (decl.pushAll first).pushAll second := by
  simp [pushAll]

@[simp] theorem strip_nil_kinds : decl.strip [] = decl := by
  simp [strip]

theorem pushAll_strip (directives : List Directive) (kinds : List DirectiveKind) :
    (decl.strip kinds).pushAll directives = (decl.pushAll directives).strip kinds := rfl

end Declaration

namespace AttributeGroup

theorem pushUnique_eq_append (groups : List AttributeGroup) (group : AttributeGroup) :
    ∃ added, pushUnique groups group = groups ++ added ∧ added ⊆ [group] := by
  simp only [pushUnique]
  split
  · exact ⟨[], by simp⟩
  · exact ⟨[group], by simp⟩

/-- Groups pushed in turn go to the end, and none is new. -/
theorem foldl_pushUnique_eq_append (pushed groups : List AttributeGroup) :
    ∃ added, pushed.foldl pushUnique groups = groups ++ added ∧ added ⊆ pushed := by
  induction pushed generalizing groups with
  | nil => exact ⟨[], by simp⟩
  | cons group pushed ih =>
      obtain ⟨first, firstEq, firstIn⟩ := pushUnique_eq_append groups group
      obtain ⟨later, laterEq, laterIn⟩ := ih (pushUnique groups group)
      refine ⟨first ++ later, ?_, ?_⟩
      · rw [List.foldl_cons, laterEq, firstEq, List.append_assoc]
      · intro item member
        rcases List.mem_append.1 member with inFirst | inLater
        · have : item = group := by simpa using firstIn inFirst
          simp [this]
        · simp [laterIn inLater]

theorem same_self (group : AttributeGroup) : group.same group := by
  rw [same, beq_self_eq_true, Bool.true_and, List.all_eq_true]
  intro pair member
  obtain ⟨index, bound, rfl⟩ := List.getElem_of_mem member
  simp [Attribute.same]

theorem isIn_append {group : AttributeGroup} {groups : List AttributeGroup}
    (present : group.isIn groups) (more : List AttributeGroup) : group.isIn (groups ++ more) := by
  simp only [isIn, List.any_append, Bool.or_eq_true] at present ⊢
  exact .inl present

/-- A group that is pushed is there afterwards. -/
theorem isIn_foldl_pushUnique {group : AttributeGroup} {pushed : List AttributeGroup}
    (member : group ∈ pushed) (groups : List AttributeGroup) :
    group.isIn (pushed.foldl pushUnique groups) := by
  induction pushed generalizing groups with
  | nil => cases member
  | cons first pushed ih =>
      rcases List.mem_cons.1 member with rfl | later
      · have here : group.isIn (pushUnique groups group) := by
          simp only [pushUnique]
          split
          next present => exact present
          · simp [isIn, same_self]
        obtain ⟨added, equal, -⟩ := foldl_pushUnique_eq_append pushed (pushUnique groups group)
        rw [List.foldl_cons, equal]
        exact isIn_append here added
      · exact ih later _

theorem length_le_foldl_pushUnique (pushed groups : List AttributeGroup) :
    groups.length ≤ (pushed.foldl pushUnique groups).length := by
  obtain ⟨added, equal, -⟩ := foldl_pushUnique_eq_append pushed groups
  simp [equal]

end AttributeGroup

namespace Declaration

@[simp] theorem addedGroups_self (decl : Declaration) : decl.addedGroups decl = 0 := by
  simp [addedGroups]

@[simp] theorem rewrittenDocs_self (decl : Declaration) : decl.rewrittenDocs decl = 0 := by
  simp [rewrittenDocs]

theorem length_le_pushAll (decl : Declaration) (directives : List Directive) :
    decl.groups.length ≤ (decl.pushAll directives).groups.length :=
  AttributeGroup.length_le_foldl_pushUnique _ _

theorem isIn_pushAll (decl : Declaration) {directive : Directive} {directives : List Directive}
    (member : directive ∈ directives) : directive.toGroup.isIn (decl.pushAll directives).groups :=
  AttributeGroup.isIn_foldl_pushUnique (List.mem_map_of_mem member) decl.groups

/-- The groups added in two steps add up. -/
theorem addedGroups_add {first second third : Declaration}
    (grows : first.groups.length ≤ second.groups.length)
    (growsAgain : second.groups.length ≤ third.groups.length) :
    first.addedGroups second + second.addedGroups third = first.addedGroups third := by
  simp only [addedGroups]
  omega

end Declaration

end TagLift
