import TagLift.File.System
import TagLift.Glob.Exclusion
import TagLift.Migration.Pipeline

/-!
# Migrating one file

A file that is read as text and has a new text is written, unless this is a dry run. Otherwise the
caller gets an error, or the migration panics.
-/

namespace TagLift

/-- Why a run stops with an error. -/
inductive RunError where
  | unreadable (path : Text) (fault : ReadFault)
  | notUtf8 (path : Text)
  | source (path : Text) (cause : SourceError)
  | invalidGlob (cause : InvalidGlob)
deriving DecidableEq, Repr

namespace RunError

def message : RunError → Text
  | .unreadable path fault => "I/O error on ".toList ++ path ++ ": ".toList ++ fault.message
  | .notUtf8 path => path ++ " is not valid UTF-8".toList
  | .source path (.malformed _) => "failed to parse ".toList ++ path
  | .source path (.unprintable cause) =>
      "failed to print ".toList ++ path ++ ": ".toList ++ cause.message.toList
  | .invalidGlob cause => cause.message

end RunError

/-- What became of a file. -/
inductive Outcome where
  | unchanged
  | written
  /-- The file would change if this were no dry run. -/
  | wouldChange
deriving DecidableEq, Repr

namespace FileSystem

/-- The text of the file at a place after its migration, and whether it differs. -/
def migrated (parse : Parser) (files : FileSystem) (path : Text) (place : Place) :
    Except (Halt RunError) (Text × Bool) := do
  match ← (files.read place).mapError fun fault => .error (.unreadable path fault) with
  | .binary _ => throw (.error (.notUtf8 path))
  | .text source =>
      let result ← (migrateSource parse source).mapError (.map (.source path))
      return (result.printed.text, result.printed.text != source)

/-- Migrate the file at a place. A dry run writes nothing. -/
def migrateAt (parse : Parser) (files : FileSystem) (dryRun : Bool) (path : Text)
    (place : Place) : Except (Halt RunError) (Outcome × FileSystem) := do
  let (text, differs) ← files.migrated parse path place
  if !differs then return (.unchanged, files)
  else if dryRun then return (.wouldChange, files)
  else return (.written, files.write place text)

def migratePath (parse : Parser) (files : FileSystem) (dryRun : Bool) (path : Text) :
    Except (Halt RunError) (Outcome × FileSystem) := do
  let place ← (files.locate path).mapError fun fault => .error (.unreadable path fault)
  files.migrateAt parse dryRun path place

end FileSystem

end TagLift
