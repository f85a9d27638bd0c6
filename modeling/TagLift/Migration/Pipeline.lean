import TagLift.Migration.Basic
import TagLift.Php.Cursor
import TagLift.Print.Basic
import TagLift.Tree.Lower

/-!
# Migrating a source

The unit of a concrete tree is migrated, its imports are resolved if any scope requires one, and
the result is printed against the source. Where the tree comes from is left open.
-/

namespace TagLift

/-- What the migration of one source gives. -/
structure Migrated where
  printed : Printed
  /-- Whether the list of imports was written anew. -/
  resolved : Bool
  ledger : Ledger
deriving Repr

namespace SourceUnit

/-- The migrated unit with its imports resolved, whether resolving changed anything, and the
ledger. -/
def migrateAndResolve (unit : SourceUnit) : SourceUnit × Bool × Ledger :=
  let (migrated, ledger) := unit.migrate
  if ledger.requiresAny then
    match migrated.resolveImports? ledger with
    | some resolved => (resolved, true, ledger)
    | none => (migrated, false, ledger)
  else (migrated, false, ledger)

end SourceUnit

/-- Migrate a source, given its concrete tree. -/
def migrateTree (source : Text) (root : Node) : Except (Halt EditError) Migrated := do
  let old := SourceUnit.ofTree source root
  let (new, resolved, ledger) := old.migrateAndResolve
  let printed ← SourceUnit.print source old new
  return ⟨printed, resolved, ledger⟩

/-- What reads the concrete tree of a source. -/
abbrev Parser := Text → Except Php.SyntaxError Node

/-- Why a source cannot be migrated. -/
inductive SourceError where
  /-- The text is not PHP code. -/
  | malformed (cause : Php.SyntaxError)
  /-- The edits of the migration do not fit the text. -/
  | unprintable (cause : EditError)
deriving DecidableEq, Repr

def migrateSource (parse : Parser) (source : Text) : Except (Halt SourceError) Migrated := do
  let root ← (parse source).mapError fun cause => .error (.malformed cause)
  (migrateTree source root).mapError (.map .unprintable)

end TagLift
