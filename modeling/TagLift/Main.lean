import TagLift.Command.Basic

/-!
# The command line program

The program reads the files that the command may look at, runs the command on them, prints what
it prints, and writes back the files that it changed.
-/

namespace TagLift

namespace Main

/-- Read the file at a place, if there is one. -/
def loadFile (place : Place) : IO (List (Place × Entry)) := do
  try
    let bytes ← IO.FS.readBinFile (String.ofList place.toPath)
    return [(place, .file (.ofBytes bytes.toList))]
  catch _ => return []

/-- Read the directory at a place with everything inside. Links are left out. -/
partial def loadDirectory (place : Place) : IO (List (Place × Entry)) := do
  let real ← IO.FS.realPath (String.ofList place.toPath)
  let mut entries := [(place, Entry.directory)]
  for child in ← real.readDir do
    let inner := place ++ [child.fileName.toList]
    match (← child.path.symlinkMetadata).type with
    | .dir => entries := entries ++ (← loadDirectory inner)
    | .file => entries := entries ++ (← loadFile inner)
    | _ => pure ()
  return entries

/-- Read the settings and ignore files of the directories above a place. -/
def loadAbove (place : Place) : IO (List (Place × Entry)) := do
  let names := [Settings.fileName] :: FileSystem.ignoreFiles
  let dirs := (List.range place.length).map place.take
  return (← dirs.mapM fun dir => names.mapM fun name => loadFile (dir ++ name)).flatten.flatten

/-- The files that the command may look at. -/
def load (workingDir : Place) (target : Option Text) : IO FileSystem := do
  match target with
  | none => return ⟨[], workingDir⟩
  | some path =>
      let place := Place.follow workingDir path
      let inside ← try loadDirectory place catch _ => loadFile place
      return ⟨(← loadAbove place) ++ inside, workingDir⟩

/-- Write back the files that changed. -/
def store (before after : FileSystem) : IO Unit := do
  for ((place, old), (_, new)) in before.entries.zip after.entries do
    match new with
    | .file (.text text) =>
        if new != old then
          IO.FS.writeFile (String.ofList place.toPath) (String.ofList text)
    | _ => pure ()

end Main

end TagLift

open TagLift in
def main (arguments : List String) : IO UInt32 := do
  let arguments := arguments.map String.toList
  let workingDir := Place.follow [] (toString (← IO.currentDir)).toList
  let files ← Main.load workingDir (Command.target? arguments)
  let exit := Command.run .standard files arguments
  Main.store files exit.files
  IO.print (String.ofList exit.output)
  match exit.failure with
  | some message => IO.eprintln ("Error: " ++ String.ofList message)
  | none => pure ()
  -- A process that aborts ends with the number of the abort signal above 128.
  return UInt32.ofNat (exit.code.getD (128 + 6))
