import TagLift.Print.Basic
import TagLift.Proofs.Edit.Sweep
import TagLift.Proofs.Layout.Normalize
import TagLift.Proofs.Print.Removal

/-!
# What printing keeps

The layout edits of a printed unit only insert line ends, and normal layout keeps the bare text.
So the printed text is, but for white space and stars, the source with the structural edits
applied, and these remove nothing but changed doc comments and statements that are gone.
-/

namespace TagLift

namespace Print

theorem layoutStmts_eq_flatMap (page : Page) (stmts : List Stmt) :
    page.layoutStmts stmts = stmts.flatMap page.layoutStmt := by
  induction stmts with
  | nil => rfl
  | cons stmt stmts ih =>
      rw [List.flatMap_cons, ← ih]
      rfl

/-- A layout edit is a blank line after some position. -/
theorem exists_blankLineAfter (page : Page) {edit : Edit} {stmt : Stmt}
    (member : edit ∈ page.layoutStmt stmt) : ∃ position, edit ∈ page.blankLineAfter position := by
  have inClass : ∀ decl, edit ∈ page.layoutClass decl →
      ∃ position, edit ∈ page.blankLineAfter position := by
    intro decl inside
    rcases List.mem_append.1 inside with inMethods | after
    · obtain ⟨method, -, inside⟩ := List.mem_flatMap.1 inMethods
      exact ⟨_, inside⟩
    · exact ⟨_, after⟩
  match stmt with
  | .nspace _ body =>
      change edit ∈ page.layoutStmts body at member
      rw [layoutStmts_eq_flatMap] at member
      obtain ⟨inner, inside, member⟩ := List.mem_flatMap.1 member
      exact exists_blankLineAfter page member
  | .classLike decl => exact inClass decl member
  | .enclosing _ classes =>
      obtain ⟨decl, -, inside⟩ := List.mem_flatMap.1 member
      exact inClass decl inside
  | .uses _ _ | .inclusion _ | .declare _ | .other _ => cases member
termination_by sizeOf stmt

theorem isBlankInsertion_of_mem_layoutStmts {source : Text} {stmts : List Stmt} {edit : Edit}
    (member : edit ∈ (Page.ofSource source).layoutStmts stmts) : edit.isBlankInsertion := by
  rw [layoutStmts_eq_flatMap] at member
  obtain ⟨stmt, -, inStmt⟩ := List.mem_flatMap.1 member
  obtain ⟨position, inside⟩ := exists_blankLineAfter _ inStmt
  simp only [Page.blankLineAfter] at inside
  split at inside
  · cases inside
  · split at inside
    · cases inside
    · obtain rfl := List.mem_singleton.1 inside
      simp [Edit.isBlankInsertion, Edit.insert, Page.ofSource, isAllBlank_newlineOf]

end Print

namespace SourceUnit

/-- Once its edits apply, a unit is printed unless a protected literal cuts a character. -/
theorem print_of_apply_eq_ok {source text : Text} {old new : SourceUnit} {edits : List Edit}
    (all : edits = structuralEdits source old new ++
      (Print.Page.ofSource source).layoutStmts new.stmts)
    (applied : Edit.apply source edits = .ok text) :
    print source old new =
      if structuralEdits source old new = [] then .ok ⟨source, 0⟩
      else
        match Layout.normalize? (newlineOf source) (old.literals.map (shiftLiteral edits)) text with
        | some normal => .ok ⟨normal, (structuralEdits source old new).length⟩
        | none => .error .panic := by
  subst all
  simp only [print, List.isEmpty_iff]
  split
  · rfl
  · rw [applied]
    rfl

/-- What a printed text comes from. -/
theorem print_eq_ok_cases {source : Text} {old new : SourceUnit} {printed : Printed}
    (done : print source old new = .ok printed) :
    (structuralEdits source old new = [] ∧ printed.text = source) ∨
      ∃ text literals, Edit.apply source (structuralEdits source old new ++
          (Print.Page.ofSource source).layoutStmts new.stmts) = .ok text ∧
        Layout.normalize? (newlineOf source) literals text = some printed.text := by
  simp only [print] at done
  split at done
  next empty =>
    obtain rfl := Except.ok.inj done
    exact .inl ⟨by simpa using empty, rfl⟩
  next =>
    cases applied : Edit.apply source (structuralEdits source old new ++
        (Print.Page.ofSource source).layoutStmts new.stmts) with
    | error error =>
        rw [applied] at done
        cases done
    | ok text =>
        rw [applied] at done
        simp only [Except.mapError, bind, Except.bind] at done
        split at done
        next normal normalized =>
          obtain rfl := Except.ok.inj done
          exact .inr ⟨text, _, rfl, normalized⟩
        · cases done

/-- The printed text is the source with the structural edits applied, but for white space and
stars, and every structural edit that removes text removes a doc comment whose text changed or a
statement that is gone. -/
theorem print_preserves {source : Text} {old new : SourceUnit} {printed : Printed}
    (done : print source old new = .ok printed) :
    (∃ text, Edit.apply source (structuralEdits source old new) = .ok text ∧
      Text.bare printed.text = Text.bare text) ∧
    ∀ edit ∈ structuralEdits source old new, edit.start < edit.stop →
      Print.Removes source old.stmts new.stmts edit.span := by
  constructor
  · rcases print_eq_ok_cases done with ⟨empty, same⟩ | ⟨text, literals, applied, normalized⟩
    · rw [empty, same]
      exact ⟨source, Edit.apply_nil source, rfl⟩
    · obtain ⟨less, appliedLess, same⟩ := Edit.bare_apply
        (fun edit member => Print.isBlankInsertion_of_mem_layoutStmts member) applied
      exact ⟨less, appliedLess,
        (Layout.bare_normalizeFrom? (newlineOf_cases source) normalized).trans same⟩
  · intro edit member removes
    rcases Print.mem_diffStmts_cases (Print.Page.ofSource source) _ removes List.drop_zero
      List.drop_zero (by intro i j; omega) member with
      ⟨oldStmt, oldIn, newStmt, newIn, same, inside⟩ | ⟨index, stmt, span, here, gone, spanned, own⟩
    · exact Print.removes_of_mem_diffStmt _ .whole oldIn newIn same removes inside
    · exact .stmt .whole here gone spanned own

/-- An import is dropped, a doc comment loses a line and its class gets an attribute. -/
theorem print_preserves_group_class :
    ∃ (source : Text) (old new : SourceUnit) (printed : Printed),
      print source old new = .ok printed ∧ printed.edits = 3 ∧
      (∃ text, Edit.apply source (structuralEdits source old new) = .ok text ∧
        Text.bare printed.text = Text.bare text) ∧
      ∀ edit ∈ structuralEdits source old new, edit.start < edit.stop →
        Print.Removes source old.stmts new.stmts edit.span := by
  let source := "<?php\nuse A;\n/**\n * @group x\n */\nclass B \x7b\x7d\n".toList
  let old : SourceUnit :=
    ⟨[.uses (some ⟨6, 12⟩) [.ofClass ['A']],
      .classLike ⟨.cls, ⟨['B'], ⟨33, 43⟩, 33,
        some ⟨some ⟨13, 32⟩, "/**\n * @group x\n */".toList⟩, []⟩, []⟩], 5, []⟩
  let new : SourceUnit :=
    ⟨[.classLike ⟨.cls, ⟨['B'], ⟨33, 43⟩, 33,
      some ⟨some ⟨13, 32⟩, "/**\n */".toList⟩, [.single ⟨['G'], []⟩]⟩, []⟩], 5, []⟩
  have done : print source old new =
      .ok ⟨"<?php\n/**\n */\n#[G]\nclass B \x7b\x7d\n".toList, 3⟩ := by
    rw [print_of_apply_eq_ok rfl (Edit.apply_of_pairwise (by decide +kernel) (by decide +kernel))]
    decide +kernel
  exact ⟨source, old, new, _, done, rfl, print_preserves done⟩

/-- A statement that only moved is removed all the same, and written anew at its other place. -/
theorem moved_stmt_removed :
    ∃ (source : Text) (old new : SourceUnit) (printed : Printed) (edit : Edit),
      print source old new = .ok printed ∧ 0 < printed.edits ∧
      (∀ stmt ∈ old.stmts, (∃ span, stmt = .other span) ∧ stmt ∈ new.stmts) ∧
      edit ∈ structuralEdits source old new ∧ edit.start < edit.stop := by
  refine ⟨"<?php\n$a;\n$b;\n".toList, ⟨[.other ⟨6, 9⟩, .other ⟨10, 13⟩], 5, []⟩,
    ⟨[.other ⟨10, 13⟩, .other ⟨6, 9⟩], 5, []⟩, ⟨"<?php\n$b;\n\n$a;\n".toList, 2⟩, ⟨6, 10, []⟩,
    ?_, by decide, ?_, ?_, by decide⟩
  · rw [print_of_apply_eq_ok rfl (Edit.apply_of_pairwise (by decide +kernel) (by decide +kernel))]
    decide +kernel
  · simp
  · decide +kernel

end SourceUnit

end TagLift
