import TagLift.Proofs.Ledger

/-!
# Ledgers and their histories

Entering, leaving, recording and requiring may come in any order. What a ledger answers then
depends on its history alone: a frame stands for the operation that entered it, and a class is left
with the references recorded while it was the innermost open class. Frames are told apart by the
time they were entered, so a reference that was recorded for one class is handed over when that
class is left, and never again.
-/

namespace TagLift

namespace Ledger

/-- What can be done to a ledger. -/
inductive Operation where
  | enterNamespace (index : Nat)
  | leaveNamespace
  | enterClass (kind : ClassKind) (name : Text)
  | leaveClass
  | recordCovers (ref : CoversRef)
  | requireImport (name : Text)
  | noteInserted
  | noteStripped
deriving DecidableEq, Repr

/-- The ledger after an operation. -/
def perform (ledger : Ledger) : Operation → Ledger
  | .enterNamespace index => ledger.enterNamespace index
  | .leaveNamespace => ledger.leaveNamespace.2
  | .enterClass kind name => ledger.enterClass kind name
  | .leaveClass => ledger.leaveClass.2
  | .recordCovers ref => (ledger.recordCovers ref).2
  | .requireImport name => ledger.requireImport name
  | .noteInserted => ledger.noteInserted
  | .noteStripped => ledger.noteStripped

/-- The operations on a ledger that was empty, the latest one first. The time of an operation is
the number of those before it. -/
abbrev History := List Operation

/-- A frame as it was entered: what it stands for, and when. -/
inductive Opening where
  | nspace (time index : Nat)
  | classLike (time : Nat) (kind : ClassKind) (name : Text)
deriving DecidableEq, Repr

namespace Opening

/-- When the frame was entered. -/
def time : Opening → Nat
  | .nspace time _ => time
  | .classLike time _ _ => time

/-- When the frame was entered, if it is a class. -/
def classTime? : Opening → Option Nat
  | .nspace _ _ => none
  | .classLike time _ _ => some time

/-- The scope of the frame, if it is a namespace. -/
def scope? : Opening → Option ImportScope
  | .nspace _ index => some (.nspace index)
  | .classLike _ _ _ => none

end Opening

namespace History

/-- The ledger that a history leads to. -/
def ledger : History → Ledger
  | [] => .empty
  | operation :: past => (ledger past).perform operation

/-- The frames that are open, innermost first: each was entered, and every leaving since then was
that of a frame inside it or did not fit the innermost frame. -/
def opened : History → List Opening
  | [] => []
  | .enterNamespace index :: past => .nspace past.length index :: opened past
  | .enterClass kind name :: past => .classLike past.length kind name :: opened past
  | .leaveNamespace :: past =>
      match opened past with
      | .nspace _ _ :: rest => rest
      | frames => frames
  | .leaveClass :: past =>
      match opened past with
      | .classLike _ _ _ :: rest => rest
      | frames => frames
  | _ :: past => opened past

/-- When the innermost open class was entered. -/
def innermostClass? (past : History) : Option Nat :=
  past.opened.findSome? Opening.classTime?

/-- The scope of the innermost open namespace, or the file. -/
def innermostScope (past : History) : ImportScope :=
  (past.opened.findSome? Opening.scope?).getD .file

/-- The references recorded while the class entered at a time was the innermost open class, in
order. -/
def references (time : Nat) : History → List CoversRef
  | [] => []
  | .recordCovers ref :: past =>
      if innermostClass? past = some time then references time past ++ [ref]
      else references time past
  | _ :: past => references time past

/-- When the class was entered that is handed back if a class is left now. -/
def leftClass? (past : History) : Option Nat :=
  past.opened.head?.bind Opening.classTime?

/-- A frame as the history has filled it: a class holds the first occurrences of its references. -/
def frame (past : History) : Opening → Frame
  | .nspace _ index => .nspace (.nspace index)
  | .classLike time kind name => .classLike ⟨kind, name, (past.references time).eraseDups⟩

/-! ## Open frames -/

/-- An operation opens a frame of its own time, or closes at most the innermost one. -/
theorem opened_cons (operation : Operation) (past : History) :
    opened (operation :: past) <:+ past.opened ∨
      ∃ opening, opened (operation :: past) = opening :: past.opened ∧
        opening.time = past.length := by
  cases operation with
  | enterNamespace index => exact .inr ⟨_, rfl, rfl⟩
  | enterClass kind name => exact .inr ⟨_, rfl, rfl⟩
  | leaveNamespace =>
      left
      rw [opened]
      split
      next opening index rest equal => exact equal ▸ List.suffix_cons _ _
      next => exact List.suffix_rfl
  | leaveClass =>
      left
      rw [opened]
      split
      next opening kind name rest equal => exact equal ▸ List.suffix_cons _ _
      next => exact List.suffix_rfl
  | recordCovers | requireImport | noteInserted | noteStripped => exact .inl List.suffix_rfl

theorem time_lt_length {past : History} {opening : Opening} (member : opening ∈ past.opened) :
    opening.time < past.length := by
  induction past with
  | nil => cases member
  | cons operation past ih =>
      rw [List.length_cons]
      rcases opened_cons operation past with fewer | ⟨entered, equal, now⟩
      · exact Nat.lt_succ_of_lt (ih (fewer.subset member))
      · rw [equal] at member
        rcases List.mem_cons.1 member with rfl | older
        · exact now ▸ Nat.lt_succ_self _
        · exact Nat.lt_succ_of_lt (ih older)

/-- Open frames were entered one after the other, the innermost last. -/
theorem pairwise_opened (past : History) :
    past.opened.Pairwise fun inner outer => outer.time < inner.time := by
  induction past with
  | nil => exact .nil
  | cons operation past ih =>
      rcases opened_cons operation past with fewer | ⟨entered, equal, now⟩
      · exact ih.sublist fewer.sublist
      · rw [equal, List.pairwise_cons, now]
        exact ⟨fun opening => time_lt_length, ih⟩

/-- A frame that is open and was entered long enough ago was open then. -/
theorem mem_opened_of_append {more past : History} {opening : Opening}
    (member : opening ∈ opened (more ++ past)) (old : opening.time < past.length) :
    opening ∈ past.opened := by
  induction more with
  | nil => exact member
  | cons operation more ih =>
      apply ih
      rcases opened_cons operation (more ++ past) with fewer | ⟨entered, equal, now⟩
      · exact fewer.subset member
      · rw [List.cons_append, equal] at member
        rcases List.mem_cons.1 member with rfl | older
        · rw [now, List.length_append] at old
          omega
        · exact older

theorem time_of_innermostClass? {past : History} {time : Nat}
    (innermost : past.innermostClass? = some time) : time < past.length := by
  obtain ⟨opening, member, isClass⟩ := List.exists_of_findSome?_eq_some innermost
  cases opening with
  | nspace => cases isClass
  | classLike entered kind name =>
      obtain rfl : entered = time := Option.some.inj isClass
      exact time_lt_length member

/-- A class that is yet to be entered has no references. -/
theorem references_of_length_le {past : History} {time : Nat} (future : past.length ≤ time) :
    past.references time = [] := by
  induction past with
  | nil => rfl
  | cons operation past ih =>
      rw [List.length_cons] at future
      have none := ih (Nat.le_of_succ_le future)
      cases operation with
      | recordCovers ref =>
          have other : innermostClass? past ≠ some time := by
            intro innermost
            exact Nat.lt_irrefl _ (Nat.lt_of_lt_of_le (time_of_innermostClass? innermost)
              (Nat.le_of_succ_le future))
          rw [references, if_neg other]
          exact none
      | enterNamespace | leaveNamespace | enterClass | leaveClass | requireImport | noteInserted
      | noteStripped => exact none

/-! ## The frames of the ledger -/

theorem eraseDups_concat (refs : List CoversRef) (ref : CoversRef) :
    (refs ++ [ref]).eraseDups = addRef refs.eraseDups ref := by
  have distinct : ∀ refs : List CoversRef, refs.eraseDups = refs.foldl addRef [] := by
    intro refs
    simp [foldl_addRef]
  rw [distinct, distinct, List.foldl_append]
  rfl

/-- Only recording a reference fills a frame. -/
theorem frame_cons {operation : Operation} (past : History)
    (other : ∀ ref, operation ≠ .recordCovers ref) :
    frame (operation :: past) = past.frame := by
  funext opening
  cases opening with
  | nspace => rfl
  | classLike time kind name =>
      cases operation with
      | recordCovers ref => exact absurd rfl (other ref)
      | enterNamespace | leaveNamespace | enterClass | leaveClass | requireImport | noteInserted
      | noteStripped => rfl

/-- Recording a reference fills no frame but the innermost class. -/
theorem frame_recordCovers {past : History} {opening : Opening} (ref : CoversRef)
    (other : past.innermostClass? ≠ some opening.time) :
    frame (.recordCovers ref :: past) opening = past.frame opening := by
  cases opening with
  | nspace => rfl
  | classLike time kind name =>
      change past.innermostClass? ≠ some time at other
      rw [frame, frame, references, if_neg other]

/-- Recording goes to the innermost class, which is the only frame that was entered when it
was. -/
theorem addCovers_map_frame {past : History} (ref : CoversRef) {frames : List Opening}
    (innermost : frames.findSome? Opening.classTime? = past.innermostClass?)
    (times : frames.Pairwise fun inner outer => outer.time < inner.time) :
    addCovers ref (frames.map past.frame) =
      past.innermostClass?.map fun _ => frames.map (frame (.recordCovers ref :: past)) := by
  induction frames with
  | nil =>
      rw [← innermost]
      rfl
  | cons opening frames ih =>
      obtain ⟨before, later⟩ := List.pairwise_cons.1 times
      cases opening with
      | nspace time index =>
          have inside := ih innermost later
          rw [List.map_cons, frame, addCovers, inside, Option.map_map]
          rfl
      | classLike time kind name =>
          have here : past.innermostClass? = some time := innermost.symm
          have others : frames.map (frame (.recordCovers ref :: past)) = frames.map past.frame := by
            apply List.map_congr_left
            intro other member
            apply frame_recordCovers
            rw [here]
            intro equal
            exact Nat.ne_of_gt (before other member) (Option.some.inj equal)
          rw [here, Option.map_some, List.map_cons, List.map_cons, frame, frame, references,
            if_pos here, eraseDups_concat, others]
          rfl

section Filled

variable {past : History} (filled : past.ledger.frames = past.opened.map past.frame)

include filled

theorem leaveNamespace_of_filled :
    past.ledger.leaveNamespace =
      match past.opened with
      | .nspace _ index :: rest =>
          (past.ledger.requiredIn (.nspace index),
            { past.ledger with frames := rest.map past.frame })
      | _ => ([], past.ledger) := by
  rw [leaveNamespace, filled]
  cases past.opened with
  | nil => rfl
  | cons opening rest =>
      cases opening with
      | nspace time index => rfl
      | classLike time kind name => rfl

theorem leaveClass_of_filled :
    past.ledger.leaveClass =
      match past.opened with
      | .classLike time kind name :: rest =>
          (some ⟨kind, name, (past.references time).eraseDups⟩,
            { past.ledger with frames := rest.map past.frame })
      | _ => (none, past.ledger) := by
  rw [leaveClass, filled]
  cases past.opened with
  | nil => rfl
  | cons opening rest =>
      cases opening with
      | nspace time index => rfl
      | classLike time kind name => rfl

theorem recordCovers_of_filled (ref : CoversRef) :
    past.ledger.recordCovers ref =
      (past.innermostClass?.isSome,
        { past.ledger with frames := past.opened.map (frame (.recordCovers ref :: past)) }) := by
  rw [recordCovers, filled, addCovers_map_frame ref rfl past.pairwise_opened]
  cases innermost : past.innermostClass? with
  | some time => rfl
  | none =>
      have same : past.opened.map (frame (.recordCovers ref :: past)) = past.ledger.frames := by
        rw [filled]
        apply List.map_congr_left
        intro opening _
        apply frame_recordCovers
        simp [innermost]
      rw [same]
      rfl

end Filled

/-- The frames of the ledger are the open frames, each filled as the history says. -/
theorem frames_ledger (past : History) : past.ledger.frames = past.opened.map past.frame := by
  induction past with
  | nil => rfl
  | cons operation past ih =>
      cases operation with
      | enterNamespace index =>
          rw [frame_cons past (by simp), opened, List.map_cons, ← ih]
          rfl
      | enterClass kind name =>
          rw [frame_cons past (by simp), opened, List.map_cons, ← ih, frame,
            references_of_length_le (Nat.le_refl _)]
          rfl
      | leaveNamespace =>
          rw [frame_cons past (by simp), ledger, perform, leaveNamespace_of_filled ih, opened]
          generalize opened past = frames at ih ⊢
          match frames, ih with
          | [], unchanged => exact unchanged
          | .nspace time index :: rest, _ => rfl
          | .classLike time kind name :: rest, unchanged => exact unchanged
      | leaveClass =>
          rw [frame_cons past (by simp), ledger, perform, leaveClass_of_filled ih, opened]
          generalize opened past = frames at ih ⊢
          match frames, ih with
          | [], unchanged => exact unchanged
          | .nspace time index :: rest, unchanged => exact unchanged
          | .classLike time kind name :: rest, _ => rfl
      | recordCovers ref =>
          rw [ledger, perform, recordCovers_of_filled ih]
          rfl
      | requireImport name =>
          rw [frame_cons past (by simp), ledger, perform, requireImport_eq_recordIn,
            recordIn_frames, ih]
          rfl
      | noteInserted => exact ih
      | noteStripped => exact ih

/-- The scope that names are required in is that of the innermost open namespace. -/
theorem currentScope_ledger (past : History) :
    past.ledger.currentScope = past.innermostScope := by
  rw [currentScope, frames_ledger, innermostScope]
  induction past.opened with
  | nil => rfl
  | cons opening frames ih =>
      cases opening with
      | nspace => rfl
      | classLike => exact ih

/-! ## Classes that were left -/

theorem leftClass?_eq_some {past : History} {time : Nat} (left : past.leftClass? = some time) :
    ∃ kind name, past.opened = .classLike time kind name :: opened (.leaveClass :: past) := by
  rw [leftClass?] at left
  rw [opened]
  match past.opened, left with
  | .classLike entered kind name :: rest, left =>
      obtain rfl : entered = time := Option.some.inj left
      exact ⟨kind, name, rfl⟩

/-- A class that was left is not left again. -/
theorem leftClass?_append {past : History} {time : Nat} (left : past.leftClass? = some time)
    (more : History) : leftClass? (more ++ .leaveClass :: past) ≠ some time := by
  intro again
  obtain ⟨kind, name, before⟩ := leftClass?_eq_some left
  obtain ⟨kind', name', after⟩ := leftClass?_eq_some again
  have entered : (Opening.classLike time kind name).time < past.length := by
    apply time_lt_length
    rw [before]
    exact List.mem_cons_self
  have kept : .classLike time kind' name' ∈ opened (.leaveClass :: past) := by
    apply mem_opened_of_append
    · exact after ▸ List.mem_cons_self
    · exact Nat.lt_succ_of_lt entered
  have times := past.pairwise_opened
  rw [before, List.pairwise_cons] at times
  exact Nat.lt_irrefl time (times.1 _ kept)

/-- Leavings of one run that hand back the same class are the same leaving. -/
theorem eq_of_leftClass?_eq {run first second : History} {time : Nat}
    (inRun : .leaveClass :: first <:+ run) (inRun' : .leaveClass :: second <:+ run)
    (left : first.leftClass? = some time) (left' : second.leftClass? = some time) :
    first = second := by
  rcases List.suffix_or_suffix_of_suffix inRun inRun' with earlier | later
  · rcases List.suffix_cons_iff.1 earlier with same | ⟨more, equal⟩
    · exact (List.cons.inj same).2
    · exact absurd (equal ▸ left') (leftClass?_append left more)
  · rcases List.suffix_cons_iff.1 later with same | ⟨more, equal⟩
    · exact (List.cons.inj same).2.symm
    · exact absurd (equal ▸ left) (leftClass?_append left' more)

end History

/-! ## Required names -/

theorem required_perform {ledger : Ledger} {operation : Operation}
    (other : ∀ name, operation ≠ .requireImport name) :
    (ledger.perform operation).required = ledger.required := by
  cases operation with
  | requireImport name => exact absurd rfl (other name)
  | leaveNamespace =>
      rw [perform, leaveNamespace]
      split <;> rfl
  | leaveClass =>
      rw [perform, leaveClass]
      split <;> rfl
  | recordCovers ref =>
      rw [perform, recordCovers]
      split <;> rfl
  | enterNamespace | enterClass | noteInserted | noteStripped => rfl

theorem mem_requiredIn_requireImport {ledger : Ledger} {scope : ImportScope} {name other : Text} :
    other ∈ (ledger.requireImport name).requiredIn scope ↔
      other ∈ ledger.requiredIn scope ∨ scope = ledger.currentScope ∧ other = name := by
  rw [mem_requiredIn, mem_requiredIn, requireImport_eq_recordIn, mem_recordIn_required,
    List.mem_singleton]

/-- No operation takes a required name back. -/
theorem requiredIn_subset_perform (ledger : Ledger) (operation : Operation) (scope : ImportScope) :
    ledger.requiredIn scope ⊆ (ledger.perform operation).requiredIn scope := by
  intro name member
  by_cases requires : ∃ other, operation = .requireImport other
  · obtain ⟨other, rfl⟩ := requires
    exact mem_requiredIn_requireImport.2 (.inl member)
  · rw [mem_requiredIn, required_perform fun other equal => requires ⟨other, equal⟩]
    exact mem_requiredIn.1 member

/-! ## What a ledger answers -/

namespace History

/-- What a ledger answers after a history, and what it does not change. -/
structure Answers (past : History) : Prop where
  /-- A class is left exactly if the innermost frame is one, with the first occurrences of its
  references. Otherwise nothing changes. -/
  leaveClass : past.ledger.leaveClass =
    match past.opened with
    | .classLike time kind name :: rest =>
        (some ⟨kind, name, (past.references time).eraseDups⟩,
          { past.ledger with frames := rest.map past.frame })
    | _ => (none, past.ledger)
  /-- A namespace is left exactly if the innermost frame is one, with the names it requires.
  Otherwise nothing changes. -/
  leaveNamespace : past.ledger.leaveNamespace =
    match past.opened with
    | .nspace _ index :: rest =>
        (past.ledger.requiredIn (.nspace index),
          { past.ledger with frames := rest.map past.frame })
    | _ => ([], past.ledger)
  /-- A class is handed back by at most one leaving. A reference is one of the class that was the
  innermost one when it was recorded, so it is handed over at most once. -/
  handedOverOnce : ∀ (first second : History) (time : Nat),
    .leaveClass :: first <:+ past → first.leftClass? = some time →
    .leaveClass :: second <:+ past → second.leftClass? = some time → first = second
  /-- A reference is refused exactly if no class is open. -/
  refused : ∀ ref, (past.ledger.recordCovers ref).1 = false ↔
    ∀ opening ∈ past.opened, opening.classTime? = none
  /-- Recording changes no frame but the innermost class, and nothing beside the frames. -/
  recordCovers : ∀ ref,
    (past.ledger.recordCovers ref).2 =
        { past.ledger with frames := (past.ledger.recordCovers ref).2.frames } ∧
      (past.ledger.recordCovers ref).2.frames.length = past.ledger.frames.length ∧
      ∀ (index : Nat) (opening : Opening), past.opened[index]? = some opening →
        past.innermostClass? ≠ some opening.time →
        (past.ledger.recordCovers ref).2.frames[index]? = past.ledger.frames[index]?
  /-- A required name is added to the names of the innermost open namespace, or of the file, and
  to no other. -/
  requireImport : ∀ name scope other, other ∈ (past.ledger.requireImport name).requiredIn scope ↔
    other ∈ past.ledger.requiredIn scope ∨ scope = past.innermostScope ∧ other = name
  /-- No name is ever taken back. -/
  keepsNames : ∀ operation scope,
    past.ledger.requiredIn scope ⊆ (past.ledger.perform operation).requiredIn scope

/-- Whatever was done to a ledger, its answers are those of its history. -/
theorem answers_of_history (past : History) : past.Answers where
  leaveClass := leaveClass_of_filled past.frames_ledger
  leaveNamespace := leaveNamespace_of_filled past.frames_ledger
  handedOverOnce := by
    intro first second time inRun left inRun' left'
    exact eq_of_leftClass?_eq inRun inRun' left left'
  refused := by
    intro ref
    rw [recordCovers_of_filled past.frames_ledger]
    simp [innermostClass?]
  recordCovers := by
    intro ref
    rw [recordCovers_of_filled past.frames_ledger]
    refine ⟨rfl, ?_, ?_⟩
    · simp [frames_ledger]
    · intro index opening here other
      simp [frames_ledger, here, frame_recordCovers ref other]
  requireImport := by
    intro name scope other
    rw [mem_requiredIn_requireImport, currentScope_ledger]
  keepsNames := requiredIn_subset_perform past.ledger

end History

end Ledger

end TagLift
