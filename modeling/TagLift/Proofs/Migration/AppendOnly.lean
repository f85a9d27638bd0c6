import TagLift.Proofs.Attribute.Same
import TagLift.Proofs.Migration.Metadata

/-!
# Groups are only appended

A migration takes no attribute group away and moves none. New groups go to the end, one attribute
each, and each is different from all groups around it, so groups that were pairwise different stay
so.
-/

namespace TagLift

/-! ## Groups pushed in turn -/

namespace AttributeGroup

/-- Groups that others became as new groups of one attribute went to the end, each different from
all that were there by then. -/
inductive AppendedTo (old : List AttributeGroup) : List AttributeGroup → Prop where
  | none : AppendedTo old old
  | push {groups : List AttributeGroup} (attr : Attribute) (before : AppendedTo old groups)
      (new : (single attr).isIn groups = false) : AppendedTo old (groups ++ [single attr])

theorem isIn_eq_false {group : AttributeGroup} {groups : List AttributeGroup} :
    group.isIn groups = false ↔ ∀ other ∈ groups, group.same other = false := by
  simp [isIn]

/-- Whether two groups are different. -/
def Differs (left right : AttributeGroup) : Prop :=
  left.same right = false

theorem Differs.symm {left right : AttributeGroup} (differs : left.Differs right) :
    right.Differs left := by
  rw [Differs, same_comm]
  exact differs

namespace AppendedTo

variable {old middle new : List AttributeGroup}

theorem trans (first : AppendedTo old middle) (second : AppendedTo middle new) :
    AppendedTo old new := by
  induction second with
  | none => exact first
  | push attr _ fresh ih => exact ih.push attr fresh

theorem exists_added (appended : AppendedTo old new) :
    ∃ added, new = old ++ added ∧ ∀ group ∈ added, ∃ attr, group = ⟨.none, [attr]⟩ := by
  induction appended with
  | none => exact ⟨[], by simp⟩
  | push attr _ _ ih =>
      obtain ⟨added, rfl, singles⟩ := ih
      refine ⟨added ++ [single attr], List.append_assoc _ _ _, fun group member => ?_⟩
      rcases List.mem_append.1 member with before | last
      · exact singles group before
      · exact ⟨attr, List.mem_singleton.1 last⟩

/-- An appended group differs from all others, in front of it and behind. -/
theorem differs (appended : AppendedTo old new) {front back : List AttributeGroup}
    {group : AttributeGroup} (split : new = front ++ group :: back)
    (behind : old.length ≤ front.length) : ∀ other ∈ front ++ back, group.Differs other := by
  induction appended generalizing back with
  | none =>
      have := congrArg List.length split
      simp at this
      omega
  | @push groups attr _ fresh ih =>
      rw [isIn_eq_false] at fresh
      rcases back.eq_nil_or_concat with rfl | ⟨back, last, rfl⟩
      · obtain ⟨rfl, lastEq⟩ := List.append_inj' split rfl
        obtain rfl : single attr = group := by simpa using lastEq
        simpa [Differs] using fresh
      · rw [List.concat_eq_append, ← List.cons_append, ← List.append_assoc] at split
        obtain ⟨rfl, lastEq⟩ := List.append_inj' split rfl
        obtain rfl : single attr = last := by simpa using lastEq
        intro other member
        rw [List.concat_eq_append, ← List.append_assoc] at member
        rcases List.mem_append.1 member with inner | last
        · exact ih rfl other inner
        · rw [List.mem_singleton.1 last]
          exact Differs.symm (fresh group (by simp))

theorem pairwise_differs (appended : AppendedTo old new) (distinct : old.Pairwise Differs) :
    new.Pairwise Differs := by
  induction appended with
  | none => exact distinct
  | push attr _ fresh ih =>
      rw [isIn_eq_false] at fresh
      refine List.pairwise_append.2 ⟨ih, List.pairwise_singleton _ _, fun group member last => ?_⟩
      rw [List.mem_singleton]
      rintro rfl
      exact Differs.symm (fresh group member)

end AppendedTo

theorem appendedTo_pushUnique (groups : List AttributeGroup) (attr : Attribute) :
    AppendedTo groups (pushUnique groups (single attr)) := by
  rw [pushUnique]
  split
  · exact .none
  next new => exact AppendedTo.none.push attr (Bool.eq_false_iff.2 new)

theorem appendedTo_foldl_pushUnique (directives : List Directive) (groups : List AttributeGroup) :
    AppendedTo groups ((directives.map Directive.toGroup).foldl pushUnique groups) := by
  induction directives generalizing groups with
  | nil => exact .none
  | cons directive directives ih => exact (appendedTo_pushUnique groups _).trans (ih _)

end AttributeGroup

/-! ## Declarations -/

open AttributeGroup in
/-- The groups of the new declaration are the old ones and behind them new groups of one attribute,
which differ from all other groups. -/
structure Declaration.AppendsGroups (old new : Declaration) : Prop where
  added : ∃ added, new.groups = old.groups ++ added ∧
    ∀ group ∈ added, ∃ attr, group = ⟨none, [attr]⟩
  differs : ∀ front group back, new.groups = front ++ group :: back →
    old.groups.length ≤ front.length → ∀ other ∈ front ++ back, group.Differs other
  distinct : old.groups.Pairwise Differs → new.groups.Pairwise Differs

namespace Declaration

variable (decl : Declaration)

theorem appendsGroups_of_appendedTo {old new : Declaration}
    (appended : AttributeGroup.AppendedTo old.groups new.groups) : old.AppendsGroups new where
  added := appended.exists_added
  differs _ _ _ := appended.differs
  distinct := appended.pairwise_differs

theorem appendsGroups_self : decl.AppendsGroups decl :=
  appendsGroups_of_appendedTo .none

theorem appendsGroups_migratedMethod : decl.AppendsGroups decl.migratedMethod :=
  appendsGroups_of_appendedTo (AttributeGroup.appendedTo_foldl_pushUnique _ _)

theorem appendsGroups_migratedOwn (covered : List Directive) :
    decl.AppendsGroups (decl.migratedOwn.pushAll covered) :=
  appendsGroups_of_appendedTo ((AttributeGroup.appendedTo_foldl_pushUnique _ _).trans
    (AttributeGroup.appendedTo_foldl_pushUnique _ _))

end Declaration

theorem ClassDecl.appendsGroups_migrated (decl : ClassDecl) :
    List.Forall₂ Declaration.AppendsGroups decl.declarations decl.migrated.declarations := by
  refine .cons ?_ ?_
  · by_cases proper : decl.kind = .cls
    · rw [decl.migrated_decl_of_cls proper]
      exact decl.decl.appendsGroups_migratedOwn _
    · rw [decl.migrated_decl_of_not_cls proper]
      exact decl.decl.appendsGroups_self
  · rw [migrated, List.forall₂_map_right_iff, List.forall₂_same]
    exact fun method _ => method.appendsGroups_migratedMethod

/-! ## All declarations of a unit -/

namespace Stmt

mutual

/-- The classes that a statement declares, those of namespaces inside namespaces included. -/
def allClasses : Stmt → List ClassDecl
  | .nspace _ body => allClassesOf body
  | .classLike decl => [decl]
  | .enclosing _ classes => classes
  | .uses _ _ | .inclusion _ | .declare _ | .other _ => []

/-- The classes that statements declare. -/
def allClassesOf : List Stmt → List ClassDecl
  | [] => []
  | stmt :: rest => allClasses stmt ++ allClassesOf rest

end

theorem allClassesOf_eq_flatMap (stmts : List Stmt) :
    allClassesOf stmts = stmts.flatMap allClasses := by
  induction stmts with
  | nil => rfl
  | cons stmt stmts ih => rw [allClassesOf, ih, List.flatMap_cons]

theorem allClasses_eq_nil_of_isUse {stmt : Stmt} (use : stmt.isUse) : stmt.allClasses = [] := by
  cases stmt with
  | uses => rfl
  | nspace | classLike | enclosing | inclusion | declare | other => cases use

end Stmt

/-- The new class is the old one or its migrated form. -/
def ClassDecl.MigratedOrSame (old new : ClassDecl) : Prop :=
  new = old ∨ new = old.migrated

namespace Stmt

theorem migratedOrSame_migrated (stmt : Stmt) :
    List.Forall₂ ClassDecl.MigratedOrSame stmt.allClasses stmt.migrated.allClasses := by
  cases stmt with
  | classLike decl => exact .cons (.inr rfl) .nil
  | enclosing span classes =>
      rw [migrated, allClasses, allClasses, List.forall₂_map_right_iff, List.forall₂_same]
      exact fun decl _ => .inr rfl
  -- A namespace inside a namespace is not visited.
  | nspace => exact List.forall₂_same.2 fun decl _ => .inl rfl
  | uses | inclusion | declare | other => exact .nil

theorem migratedOrSame_topMigrated (stmt : Stmt) :
    List.Forall₂ ClassDecl.MigratedOrSame stmt.allClasses stmt.topMigrated.allClasses := by
  cases stmt with
  | nspace head body =>
      have kept : (bodyMigrated body).flatMap allClasses =
          (body.map migrated).flatMap allClasses := by
        rw [← flatMap_filter_not_isUse fun _ => allClasses_eq_nil_of_isUse,
          migratedFrom_bodyMigrated, flatMap_filter_not_isUse fun _ => allClasses_eq_nil_of_isUse]
      rw [topMigrated, allClasses, allClasses, allClassesOf_eq_flatMap, allClassesOf_eq_flatMap,
        kept, List.flatMap_map]
      exact List.rel_flatMap (List.forall₂_same.2 fun _ _ => rfl) fun stmt _ equal =>
        equal ▸ stmt.migratedOrSame_migrated
  | classLike | enclosing | uses | inclusion | declare | other => exact migratedOrSame_migrated _

end Stmt

namespace SourceUnit

/-- All declarations of a unit, each class before its methods. -/
def declarations (unit : SourceUnit) : List Declaration :=
  (unit.stmts.flatMap Stmt.allClasses).flatMap ClassDecl.declarations

/-- Being the same is an equivalence of attributes and of groups, and every declaration of a unit
has after the migration its old groups in order and behind them new ones, each of one attribute and
different from all other groups of the declaration. -/
theorem migrate_appends_groups (unit : SourceUnit) :
    (Equivalence fun left right : Attribute => left.same right) ∧
    (Equivalence fun left right : AttributeGroup => left.same right) ∧
    List.Forall₂ Declaration.AppendsGroups unit.declarations unit.migrate.1.declarations := by
  refine ⟨Attribute.equivalence_same, AttributeGroup.equivalence_same, ?_⟩
  have classes : List.Forall₂ ClassDecl.MigratedOrSame (unit.stmts.flatMap Stmt.allClasses)
      (unit.migrate.1.stmts.flatMap Stmt.allClasses) := by
    rw [migrate_eq, List.flatMap_map]
    exact List.rel_flatMap (List.forall₂_same.2 fun _ _ => rfl) fun stmt _ equal =>
      equal ▸ stmt.migratedOrSame_topMigrated
  refine List.rel_flatMap classes ?_
  rintro decl _ (rfl | rfl)
  · exact List.forall₂_same.2 fun decl _ => decl.appendsGroups_self
  · exact decl.appendsGroups_migrated

end SourceUnit

end TagLift
