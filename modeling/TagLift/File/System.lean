import TagLift.File.Path

/-!
# Files and directories

A file system is a list of places with what stands there. A place is spelled by the names on the
way to it from the root; every place above a listed one is a directory.
-/

namespace TagLift

/-- The names on the way from the root to a file or directory. -/
abbrev Place := List Text

namespace Place

def toPath (place : Place) : Text :=
  if place.isEmpty then ['/'] else place.flatMap ('/' :: ·)

/-- The place that a path names from a place on, whatever stands there. -/
def follow (start : Place) (path : Text) : Place :=
  (Path.parts path).foldl (fun place part =>
    if Path.isIdle part then place
    else if part = ['.', '.'] then place.dropLast
    else place ++ [part]) (if path.head? = some '/' then [] else start)

/-- Places in the order in which directories are walked: by name, and what is inside a directory
where the directory stands. -/
def compare : Place → Place → Ordering
  | [], [] => .eq
  | [], _ :: _ => .lt
  | _ :: _, [] => .gt
  | a :: as, b :: bs => (Text.compare a b).then (compare as bs)

end Place

/-- What a file holds: a text, or bytes that are no text. -/
inductive Content where
  | text (body : Text)
  | binary (bytes : Bytes)
deriving DecidableEq, Repr

namespace Content

/-- The content that some bytes are. -/
def ofBytes (bytes : Bytes) : Content :=
  match bytes.toText? with
  | some body => .text body
  | none => .binary bytes

/-- The lines of a file up to the first that is no text. -/
def lines : Content → List Text
  | .text body => body.lines
  | .binary bytes =>
      ((bytes.splitOn 10).map Bytes.toText?).takeWhile Option.isSome |>.filterMap id
        |>.map Text.dropReturn

end Content

/-- What stands at a place. -/
inductive Entry where
  | file (content : Content)
  | directory
deriving DecidableEq, Repr

/-- Why a file cannot be read. -/
inductive ReadFault where
  | missing
  | notDirectory
  | isDirectory
deriving DecidableEq, Repr

namespace ReadFault

def message : ReadFault → Text
  | .missing => "No such file or directory (os error 2)".toList
  | .notDirectory => "Not a directory (os error 20)".toList
  | .isDirectory => "Is a directory (os error 21)".toList

end ReadFault

/-- Places with what stands there, and the directory that relative paths start from. -/
structure FileSystem where
  entries : List (Place × Entry)
  workingDir : Place
deriving Repr

namespace FileSystem

def entry? (files : FileSystem) (place : Place) : Option Entry :=
  match files.entries.find? (·.1 == place) with
  | some (_, entry) => some entry
  | none =>
      if place.isEmpty || files.entries.any (place.isPrefixOf ·.1) then some .directory else none

/-- Go from a place to a part of a path. -/
def step (files : FileSystem) (place : Place) (part : Text) : Except ReadFault Place :=
  match files.entry? place with
  | none => .error .missing
  | some (.file _) => .error .notDirectory
  | some .directory =>
      if Path.isIdle part then .ok place
      else if part = ['.', '.'] then .ok place.dropLast
      else if (files.entry? (place ++ [part])).isSome then .ok (place ++ [part])
      else .error .missing

/-- The place that a path leads to. -/
def locate (files : FileSystem) (path : Text) : Except ReadFault Place :=
  if path.isEmpty then .error .missing
  else
    let start := if path.head? = some '/' then [] else files.workingDir
    (Path.parts path).foldlM files.step start

def isDirectory (files : FileSystem) (path : Text) : Bool :=
  match files.locate path with
  | .ok place => files.entry? place == some .directory
  | .error _ => false

def isFile (files : FileSystem) (path : Text) : Bool :=
  match files.locate path with
  | .ok place => (files.entry? place).any (· != .directory)
  | .error _ => false

def read (files : FileSystem) (place : Place) : Except ReadFault Content :=
  match files.entry? place with
  | some (.file content) => .ok content
  | some .directory => .error .isDirectory
  | none => .error .missing

def readPath (files : FileSystem) (path : Text) : Except ReadFault Content := do
  files.read (← files.locate path)

def put (files : FileSystem) (place : Place) (entry : Entry) : FileSystem :=
  if files.entries.any (·.1 == place) then
    { files with
      entries := files.entries.map fun (old, before) =>
        if old = place then (old, entry) else (old, before) }
  else { files with entries := files.entries ++ [(place, entry)] }

def write (files : FileSystem) (place : Place) (text : Text) : FileSystem :=
  files.put place (.file (.text text))

/-- The places of the files inside a directory, in the order in which they are walked. -/
def filesUnder (files : FileSystem) (dir : Place) : List Place :=
  let places := files.entries.filterMap fun (place, entry) =>
    if entry != .directory && dir.isPrefixOf place && place != dir then some place else none
  places.mergeSort fun a b => (Place.compare a b).isLE

end FileSystem

end TagLift
