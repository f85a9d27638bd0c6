import TagLift.Text.Basic

/-!
# Command line arguments

Options stand anywhere in front of `--`. Letters of short options may be run together, and the
value of an option may be attached to it or be the next argument. What is wrong with the
arguments counts in the order in which they are given, and so does a request for help.
-/

namespace TagLift

/-- What the arguments ask for. -/
structure Arguments where
  paths : List Text
  exclude : List Text
  dryRun : Bool
  verbose : Bool
deriving DecidableEq, Repr

/-- Why the arguments do not lead to a run. -/
inductive ArgumentStop where
  | help
  | version
  /-- An option that does not exist. -/
  | unknownOption (option : Text)
  | missingValue
  | emptyPath
  /-- An option that was given before, or that takes no value. -/
  | misusedOption (option : Text)
deriving DecidableEq, Repr

namespace Arguments

def empty : Arguments :=
  ⟨[], [], false, false⟩

/-- Arguments that are being read. -/
structure Progress where
  read : Arguments
  /-- Whether the next argument is a value. -/
  awaitsValue : Bool
  /-- Whether some path is empty; that is noticed at the next option or at the end. -/
  hasEmptyPath : Bool

namespace Progress

/-- Add the patterns of an exclusion option. -/
def addExclude (progress : Progress) (value : Text) : Progress :=
  { progress with
    read := { progress.read with exclude := progress.read.exclude ++ value.splitOn ',' }
    awaitsValue := false }

def addPath (progress : Progress) (path : Text) : Progress :=
  { progress with
    read := { progress.read with paths := progress.read.paths ++ [path] }
    hasEmptyPath := progress.hasEmptyPath || path.isEmpty }

/-- Finish what an option or the end of the arguments finishes. -/
def settle (progress : Progress) : Except ArgumentStop Progress :=
  if progress.awaitsValue then .error .missingValue
  else if progress.hasEmptyPath then .error .emptyPath
  else .ok progress

def setDryRun (progress : Progress) : Except ArgumentStop Progress := do
  let progress ← progress.settle
  if progress.read.dryRun then throw (.misusedOption "--dry-run".toList)
  return { progress with read := { progress.read with dryRun := true } }

def setVerbose (progress : Progress) : Except ArgumentStop Progress := do
  let progress ← progress.settle
  if progress.read.verbose then throw (.misusedOption "--verbose".toList)
  return { progress with read := { progress.read with verbose := true } }

def stop (progress : Progress) (request : ArgumentStop) : Except ArgumentStop Progress := do
  discard progress.settle
  throw request

/-- Read the letters of short options. -/
def readShort (progress : Progress) : Text → Except ArgumentStop Progress
  | [] => .ok progress
  | 'n' :: rest => do (← progress.setDryRun).readShort rest
  | 'v' :: rest => do (← progress.setVerbose).readShort rest
  | 'h' :: _ => progress.stop .help
  | 'V' :: _ => progress.stop .version
  | 'e' :: rest => do
      let progress ← progress.settle
      match rest with
      | [] => return { progress with awaitsValue := true }
      | '=' :: value => return progress.addExclude value
      | value => return progress.addExclude value
  | c :: _ => .error (.unknownOption ['-', c])

/-- Read a long option after its dashes. -/
def readLong (progress : Progress) (text : Text) : Except ArgumentStop Progress :=
  let name := text.takeWhile (· != '=')
  let value := ((text.dropWhile (· != '=')).head?).map fun _ =>
    (text.dropWhile (· != '=')).tail
  let flag (read : Except ArgumentStop Progress) : Except ArgumentStop Progress :=
    if value.isSome then .error (.misusedOption name) else read
  if name = "exclude".toList then do
    let progress ← progress.settle
    match value with
    | some value => return progress.addExclude value
    | none => return { progress with awaitsValue := true }
  else if name = "dry-run".toList then flag progress.setDryRun
  else if name = "verbose".toList then flag progress.setVerbose
  else if name = "help".toList then flag (progress.stop .help)
  else if name = "version".toList then flag (progress.stop .version)
  else .error (.unknownOption ("--".toList ++ name))

/-- Read an argument that is not behind `--`. -/
def readArgument (progress : Progress) (argument : Text) : Except ArgumentStop Progress :=
  match argument with
  | '-' :: '-' :: rest => progress.readLong rest
  | '-' :: c :: rest => progress.readShort (c :: rest)
  | value =>
      .ok (if progress.awaitsValue then progress.addExclude value else progress.addPath value)

end Progress

/-- Read the arguments from the left. -/
def readFrom (progress : Progress) : List Text → Except ArgumentStop Arguments
  | [] => do return (← progress.settle).read
  | argument :: rest =>
      if argument = "--".toList then do
        return (← (rest.foldl (·.addPath ·) progress).settle).read
      else do readFrom (← progress.readArgument argument) rest

def ofList (arguments : List Text) : Except ArgumentStop Arguments :=
  readFrom ⟨empty, false, false⟩ arguments

end Arguments

end TagLift
