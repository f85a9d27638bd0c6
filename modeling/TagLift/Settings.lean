import TagLift.File.System
import TagLift.Toml.Parse

/-!
# Settings

Settings stand in the section `[migrator]` of a file that is looked for in a directory and in
those above it. The first such file that can be read counts; a malformed one is passed over.
-/

namespace TagLift

/-- The settings of a run; each may be left out. -/
structure Settings where
  exclude : Option (List Text)
  extensions : Option (List Text)
  respectIgnores : Option Bool
deriving DecidableEq, Repr

namespace Settings

def empty : Settings :=
  ⟨none, none, none⟩

def fileName : Text :=
  ".phpunit-migrator.toml".toList

def excludedPatterns (settings : Settings) : List Text :=
  settings.exclude.getD []

/-- The extensions of files to migrate, without dots in front. -/
def fileExtensions (settings : Settings) : List Text :=
  match settings.extensions.getD [] with
  | [] => ["php".toList]
  | extensions => extensions.map (·.dropWhile (· == '.'))

/-- Whether ignore files count. -/
def respectsIgnores (settings : Settings) : Bool :=
  settings.respectIgnores.getD false

def strings? : TomlValue → Option (List Text)
  | .array items => items.mapM fun
      | .string text => some text
      | _ => none
  | _ => none

def flag? : TomlValue → Option Bool
  | .boolean value => some value
  | _ => none

/-- An option that may be absent but not malformed. -/
def optional? {α : Type} (read : TomlValue → Option α) :
    Option TomlValue → Option (Option α)
  | none => some none
  | some value => (read value).map some

/-- The settings of a section. One given as an array lists the options in order, and a date is a
section without options. -/
def ofSection? : TomlValue → Option Settings
  | .table entries => do
      let get (key : String) := (entries.find? (·.1 == key.toList)).map Prod.snd
      return ⟨← optional? strings? (get "exclude"), ← optional? strings? (get "extensions"),
        ← optional? flag? (get "respect_gitignore")⟩
  | .array (exclude :: extensions :: flag :: _) => do
      return ⟨← strings? exclude, ← strings? extensions, ← flag? flag⟩
  | .datetime _ => some empty
  | _ => none

/-- The settings that a text spells. -/
def ofText? (text : Text) : Option Settings := do
  let entries ← Toml.ofText? text
  match entries.find? (·.1 == "migrator".toList) with
  | some (_, value) => ofSection? value
  | none => return empty

end Settings

namespace FileSystem

/-- The settings in a directory, if there are any. -/
def settingsIn? (files : FileSystem) (dir : Text) : Option Settings :=
  match files.readPath (Path.join dir Settings.fileName) with
  | .ok (.text text) => Settings.ofText? text
  | _ => none

/-- The settings for a path, and the file they come from. -/
def settingsFor (files : FileSystem) (path : Text) : Settings × Option Text :=
  let dirs := if files.isFile path then (Path.ancestors path).tail else Path.ancestors path
  (dirs.findSome? fun dir =>
    (files.settingsIn? dir).map fun settings =>
      (settings, some (Path.join dir Settings.fileName))).getD (Settings.empty, none)

end FileSystem

end TagLift
