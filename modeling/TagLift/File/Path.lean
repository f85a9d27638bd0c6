import TagLift.Text.Basic

/-!
# Paths as texts

A path is a text whose parts are separated by slashes. Parts that are empty or a single dot do
not count, but they stay in the text.
-/

namespace TagLift

namespace Path

/-- How a path is shown: with slashes only, and without a leading `./`. -/
def display (path : Text) : Text :=
  let slashed : Text := path.map fun c => if c = '\\' then '/' else c
  ("./".toList.isPrefixOf? slashed).getD slashed

/-- A path inside a directory. An absolute path stays as it is. -/
def join (dir path : Text) : Text :=
  if path.head? = some '/' ∨ dir.isEmpty then path
  else if dir.getLast? = some '/' then dir ++ path
  else dir ++ '/' :: path

/-- The parts between slashes, empty ones included. -/
def parts (path : Text) : List Text :=
  path.splitOn '/'

/-- Whether a part is skipped on the way to a file. -/
def isIdle (part : Text) : Bool :=
  part.isEmpty || part == ['.']

/-- The path that parts spell. Parts that start with an empty one spell an absolute path. -/
def ofParts (parts : List Text) : Text :=
  if parts = [[]] then ['/'] else ['/'].intercalate parts

/-- The parts without those at the end that do not count. The empty part in front of an absolute
path stays. -/
def dropIdleEnd : List Text → List Text
  | [] => []
  | first :: rest => first :: (rest.reverse.dropWhile isIdle).reverse

/-- The directory that holds a path, if there is one. -/
def parent? (path : Text) : Option Text :=
  match dropIdleEnd (parts path) with
  | [] => none
  | [part] => if part.isEmpty then none else some []
  | parts => some (ofParts (dropIdleEnd parts.dropLast))

def ancestorsUpTo : Nat → Text → List Text
  | 0, _ => []
  | fuel + 1, path => path :: ((parent? path).map (ancestorsUpTo fuel)).getD []

/-- A path and the directories above it, nearest first. -/
def ancestors (path : Text) : List Text :=
  ancestorsUpTo (path.length + 1) path

/-- The extension of a file name: what follows the last dot, unless that dot comes first. -/
def extension? (name : Text) : Option Text :=
  let ending := name.reverse.takeWhile (· != '.')
  if ending.length + 1 < name.length then some ending.reverse else none

end Path

end TagLift
