import TagLift.File.System
import TagLift.Glob.Match

/-!
# Ignore rules

A line of an ignore file is a pattern for paths below the directory of that file. A leading `!`
keeps what an earlier line ignores, a trailing slash, escaped or not, restricts a line to
directories, and a pattern without a slash applies at every depth. Byte order marks in front of
the first line do not count.
-/

namespace TagLift

/-- A line of an ignore file. -/
structure IgnoreRule where
  glob : Glob
  /-- Whether what matches is kept. -/
  keeps : Bool
  onlyDirs : Bool
deriving Repr

namespace IgnoreRule

/-- The line without blanks at its end, unless an escaped space ends it. -/
def trimLine (line : Text) : Text :=
  if "\\ ".toList.isSuffixOf line then line else Text.trimEnd line

/-- The pattern for a line without its marks. -/
def spread (anchored : Bool) (body : Text) : Text :=
  let everywhere :=
    if anchored || body.contains '/' || body == "**".toList then body else "**/".toList ++ body
  if "/**".toList.isSuffixOf everywhere then everywhere ++ "/*".toList else everywhere

/-- Whether a line is a comment or holds nothing. -/
def isIdle (line : Text) : Bool :=
  line.head? == some '#' || line.isEmpty

/-- A pattern without the backslash at its end. -/
def withoutEscape (body : Text) : Text :=
  if body.getLast? == some '\\' then body.dropLast else body

/-- The rule of a line, if it has one. -/
def ofLine? (line : Text) : Option IgnoreRule :=
  let line := if isIdle line then [] else trimLine line
  if isIdle line then none
  else
    let (keeps, anchored, body) : Bool × Bool × Text := match line with
      | '\\' :: '!' :: rest => (false, false, '!' :: rest)
      | '\\' :: '#' :: rest => (false, false, '#' :: rest)
      | '!' :: '/' :: rest => (true, true, rest)
      | '!' :: rest => (true, false, rest)
      | '/' :: rest => (false, true, rest)
      | rest => (false, false, rest)
    let onlyDirs := body.getLast? == some '/'
    let body : Text := if onlyDirs then withoutEscape body.dropLast else body
    match GlobPiece.ofText true (spread anchored body) with
    | .ok pieces => some ⟨⟨pieces, true⟩, keeps, onlyDirs⟩
    | .error _ => none

/-- Whether a rule speaks about a path. -/
def appliesTo (rule : IgnoreRule) (path : Text) (isDir : Bool) : Bool :=
  (!rule.onlyDirs || isDir) && rule.glob.accepts path

def ofContent (content : Content) : List IgnoreRule :=
  match content.lines with
  | [] => []
  | first :: rest =>
      (first.dropWhile (· == Char.ofNat 0xFEFF) :: rest).filterMap ofLine?

end IgnoreRule

namespace FileSystem

/-- What the last rule that speaks about a path says: whether the path is ignored. -/
def verdict? (files : FileSystem) (dir : Place) (name : List Text) (place : Place)
    (isDir : Bool) : Option Bool :=
  match files.read (dir ++ name) with
  | .ok content =>
      let path := ['/'].intercalate (place.drop dir.length)
      let rules := (IgnoreRule.ofContent content).reverse
      (rules.find? (·.appliesTo path isDir)).map fun rule => !rule.keeps
  | .error _ => none

/-- The ignore files of a directory, those that count more first. -/
def ignoreFiles : List (List Text) :=
  [[".ignore".toList], [".gitignore".toList],
    [".git".toList, "info".toList, "exclude".toList]]

/-- Whether the ignore files around a place ignore it. Nearer directories count more. -/
def isIgnored (files : FileSystem) (place : Place) (isDir : Bool) : Bool :=
  let dirs := ((List.range place.length).map place.take).reverse
  let verdicts := ignoreFiles.filterMap fun name =>
    dirs.findSome? fun dir => files.verdict? dir name place isDir
  verdicts.head?.getD false

/-- Whether a place, or a directory on the way to it from a directory, is ignored. -/
def isIgnoredUnder (files : FileSystem) (dir place : Place) : Bool :=
  let lengths := (List.range place.length).filter (dir.length < ·)
  lengths.any (fun length => files.isIgnored (place.take length) true) ||
    files.isIgnored place false

/-- The files inside a directory in the order in which they are walked. Ignored ones are passed
over if ignore files count. -/
def walk (files : FileSystem) (respectIgnores : Bool) (dir : Place) : List Place :=
  (files.filesUnder dir).filter fun place =>
    !(respectIgnores && files.isIgnoredUnder dir place)

end FileSystem

end TagLift
