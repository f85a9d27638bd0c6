import TagLift.Doc.Directive
import TagLift.Source.Basic

/-!
# The ledger of a migration

While a file is migrated the ledger keeps the namespaces and classes that are open, innermost
first, the imports that each scope requires, and two counts. A reference to a covered method is
kept with the innermost open class until that class is left. A frame is only closed by leaving
what it stands for; any other request to leave changes nothing.
-/

namespace TagLift

/-- Where an import has to stand: in the file, or in the namespace at an index of its top-level
statements. -/
inductive ImportScope where
  | file
  | nspace (index : Nat)
deriving DecidableEq, Repr

/-- A class that is open, with the distinct references seen in it so far. -/
structure OpenClass where
  kind : ClassKind
  name : Text
  covers : List CoversRef
deriving DecidableEq, Repr

/-- What can be open. -/
inductive Frame where
  | nspace (scope : ImportScope)
  | classLike (frame : OpenClass)
deriving DecidableEq, Repr

/-- The state of a migration. -/
structure Ledger where
  /-- The open frames, innermost first. -/
  frames : List Frame
  /-- The required names with their scopes, each pair once. -/
  required : List (ImportScope × Text)
  /-- How many attribute groups were added. -/
  inserted : Nat
  /-- How many doc comments changed. -/
  stripped : Nat
deriving DecidableEq, Repr

namespace Ledger

def empty : Ledger :=
  ⟨[], [], 0, 0⟩

/-- Whether everything entered was left. -/
def isBalanced (ledger : Ledger) : Bool :=
  ledger.frames.isEmpty

/-- The scope of the innermost open namespace, or the file. -/
def scopeOf : List Frame → ImportScope
  | [] => .file
  | .nspace scope :: _ => scope
  | .classLike _ :: rest => scopeOf rest

/-- The scope that imports are required in at this point. -/
def currentScope (ledger : Ledger) : ImportScope :=
  scopeOf ledger.frames

/-- The names required in a scope, in order. -/
def requiredIn (ledger : Ledger) (scope : ImportScope) : List Text :=
  sortUnique Text.compare
    (ledger.required.filterMap fun (s, name) => if s = scope then some name else none)

def requiresAny (ledger : Ledger) : Bool :=
  !ledger.required.isEmpty

/-- Require a name in the current scope. -/
def requireImport (ledger : Ledger) (name : Text) : Ledger :=
  let entry := (ledger.currentScope, name)
  if entry ∈ ledger.required then ledger
  else { ledger with required := ledger.required ++ [entry] }

/-- Enter the namespace at an index of the top-level statements. -/
def enterNamespace (ledger : Ledger) (index : Nat) : Ledger :=
  { ledger with frames := .nspace (.nspace index) :: ledger.frames }

/-- Leave the innermost frame if it is a namespace; the answer is what the namespace requires. -/
def leaveNamespace (ledger : Ledger) : List Text × Ledger :=
  match ledger.frames with
  | .nspace scope :: rest => (ledger.requiredIn scope, { ledger with frames := rest })
  | _ => ([], ledger)

/-- Enter a class with no reference seen yet. -/
def enterClass (ledger : Ledger) (kind : ClassKind) (name : Text) : Ledger :=
  { ledger with frames := .classLike ⟨kind, name, []⟩ :: ledger.frames }

/-- Leave the innermost frame if it is a class; the answer is the class as it was left. -/
def leaveClass (ledger : Ledger) : Option OpenClass × Ledger :=
  match ledger.frames with
  | .classLike frame :: rest => (some frame, { ledger with frames := rest })
  | _ => (none, ledger)

/-- Add a reference to the innermost class of the frames, unless it is there. -/
def addCovers (ref : CoversRef) : List Frame → Option (List Frame)
  | [] => none
  | .nspace scope :: rest => (addCovers ref rest).map (.nspace scope :: ·)
  | .classLike frame :: rest =>
      let covers := if ref ∈ frame.covers then frame.covers else frame.covers ++ [ref]
      some (.classLike { frame with covers } :: rest)

/-- Keep a reference with the innermost open class; the answer says whether there is one. -/
def recordCovers (ledger : Ledger) (ref : CoversRef) : Bool × Ledger :=
  match addCovers ref ledger.frames with
  | some frames => (true, { ledger with frames })
  | none => (false, ledger)

/-- Count an added attribute group. -/
def noteInserted (ledger : Ledger) : Ledger :=
  { ledger with inserted := ledger.inserted + 1 }

/-- Count a changed doc comment. -/
def noteStripped (ledger : Ledger) : Ledger :=
  { ledger with stripped := ledger.stripped + 1 }

end Ledger

end TagLift
