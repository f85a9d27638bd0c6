import TagLift.Ignore.Rule
import TagLift.Php.Tree
import TagLift.Run.File

/-!
# Migrating a directory

The files of a directory are migrated one after the other. The first that fails ends the run;
those before it keep their new text. How PHP code is read, what an exclusion pattern means and how
a directory is walked are up to the tools of the run.
-/

namespace TagLift

/-- What to migrate and how. -/
structure RunOptions where
  exclude : List Text
  extensions : List Text
  respectIgnores : Bool
  dryRun : Bool
deriving DecidableEq, Repr

/-- What a run leaves to others. -/
structure Tools where
  parse : Parser
  readGlob : GlobReader
  /-- The files inside a directory, given whether ignore files count. -/
  walk : FileSystem → Bool → Place → List Place

/-- The tools of the command. -/
def Tools.standard : Tools :=
  ⟨Node.ofSource, Glob.reader, FileSystem.walk⟩

/-- How many files a run looked at, and how many of them it changed or would change. -/
structure Summary where
  processed : Nat
  changed : Nat
deriving DecidableEq, Repr

namespace Summary

def zero : Summary :=
  ⟨0, 0⟩

def count (outcome : Outcome) (summary : Summary) : Summary :=
  ⟨summary.processed + 1, if outcome = .unchanged then summary.changed else summary.changed + 1⟩

end Summary

/-- What a run prints, how it ends, and the files it leaves. -/
structure Report where
  output : Text
  result : Except (Halt RunError) Summary
  files : FileSystem

def startLine (path : Text) : Text :=
  "process ".toList ++ Path.display path

def outcomeLine : Outcome → Text
  | .unchanged => " no diff\n".toList
  | .written => "\n".toList
  | .wouldChange => " would change\n".toList

/-- The end of the line for a file that ends the run. Nothing is printed behind a panic. -/
def haltLine : Halt RunError → Text
  | .error _ => "\n".toList
  | .panic => []

def completionLines (dryRun : Bool) (summary : Summary) : Text :=
  let count :=
    if dryRun then
      "[DRY-RUN] ".toList ++ Nat.toDigits 10 summary.changed ++
        " file(s) would change\n".toList
    else []
  count ++ "PHPUnit annotations transformed!\n".toList

namespace FileSystem

/-- Migrate the files at some places. -/
def migrateAll (parse : Parser) (dryRun : Bool) : FileSystem → List Place → Report
  | files, [] => ⟨[], .ok .zero, files⟩
  | files, place :: rest =>
      let path := place.toPath
      match files.migrateAt parse dryRun path place with
      | .error halt => ⟨startLine path ++ haltLine halt, .error halt, files⟩
      | .ok (outcome, files) =>
          let later := migrateAll parse dryRun files rest
          { later with
            output := startLine path ++ outcomeLine outcome ++ later.output
            result := later.result.map (·.count outcome) }

/-- The places of the files to migrate inside a directory: those that are walked, have one of the
extensions and are not excluded. -/
def collect (tools : Tools) (files : FileSystem) (options : RunOptions) (dir : Place) :
    Except InvalidGlob (List Place) := do
  let exclusion ← Exclusion.ofPatterns tools.readGlob options.exclude
  return (tools.walk files options.respectIgnores dir).filter fun place =>
    ((place.getLast?.bind Path.extension?).any options.extensions.contains) &&
      !exclusion.excludes place.toPath

/-- Migrate the files inside a directory. -/
def run (tools : Tools) (files : FileSystem) (options : RunOptions) (dir : Place) : Report :=
  match files.collect tools options dir with
  | .error cause => ⟨[], .error (.error (.invalidGlob cause)), files⟩
  | .ok places =>
      let report := files.migrateAll tools.parse options.dryRun places
      match report.result with
      | .ok summary =>
          { report with output := report.output ++ completionLines options.dryRun summary }
      | .error _ => report

end FileSystem

end TagLift
