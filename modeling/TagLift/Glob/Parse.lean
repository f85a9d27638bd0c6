import TagLift.Glob.Basic

/-!
# Reading patterns

Inside braces a comma ends a branch. Two stars stand for directories only where they fill the
space between slashes; anywhere else they are two single stars.
-/

namespace TagLift

namespace GlobPiece

/-- A group of branches that is being read. The pieces of the open branch stand last first. -/
structure Group where
  finished : List (List GlobPiece)
  current : List GlobPiece

/-- What was read so far: the pieces of the open branch, last first, the groups around it, and the
character read last. -/
structure Progress where
  current : List GlobPiece
  finished : List (List GlobPiece)
  outer : List Group
  previous : Option Char

namespace Progress

def start : Progress :=
  ⟨[], [], [], none⟩

/-- Add a piece that ends in a character. -/
def push (progress : Progress) (piece : GlobPiece) (char : Char) : Progress :=
  { progress with current := piece :: progress.current, previous := some char }

def inGroup (progress : Progress) : Bool :=
  !progress.outer.isEmpty

def openGroup (progress : Progress) : Progress :=
  ⟨[], [], ⟨progress.finished, progress.current⟩ :: progress.outer, some '{'⟩

/-- End a branch of the open group. -/
def nextBranch (progress : Progress) : Progress :=
  { progress with
    current := []
    finished := progress.finished ++ [progress.current.reverse]
    previous := some ',' }

def closeGroup (progress : Progress) : Except GlobError Progress :=
  match progress.outer with
  | [] => .error .unopenedAlternates
  | group :: outer =>
      let branches := progress.finished ++ [progress.current.reverse]
      .ok ⟨.alternates branches :: group.current, group.finished, outer, some '}'⟩

/-- Put directories in place of the slash, or of the directories, that was read last. -/
def pushDirs (progress : Progress) (isLast : Bool) (char : Char) : Progress :=
  match progress.current with
  | .leadingDirs :: _ => { progress with previous := some char }
  | .trailingDirs :: _ => { progress with previous := some char }
  | pieces =>
      { progress with
        current := (if isLast then .trailingDirs else .innerDirs) :: pieces.tail
        previous := some char }

/-- Read what follows two stars; the answer holds the text after it. -/
def readDirs (progress : Progress) (rest : Text) : Progress × Text :=
  let twoStars := ((progress.push .any '*').push .any '*', rest)
  if progress.current.isEmpty then
    match rest with
    | [] => (progress.push .leadingDirs '*', [])
    | '/' :: after => (progress.push .leadingDirs '/', after)
    | _ => twoStars
  else if progress.previous != some '/' &&
      !(progress.inGroup && (progress.previous == some ',' || progress.previous == some '{')) then
    twoStars
  else
    match rest with
    | [] => (progress.pushDirs true '*', [])
    | '/' :: after => (progress.pushDirs false '/', after)
    | c :: _ =>
        if progress.inGroup && (c == ',' || c == '}') then (progress.pushDirs true '*', rest)
        else twoStars

end Progress

/-- The ranges of a class that is being read, last first. -/
structure ClassProgress where
  ranges : List (Char × Char)
  /-- Whether a dash waits for the end of its range. -/
  inRange : Bool

namespace ClassProgress

/-- Add a character: alone, or as the end of the last range. -/
def add (progress : ClassProgress) (char : Char) : Except GlobError ClassProgress :=
  match progress.inRange, progress.ranges with
  | true, (first, _) :: ranges =>
      if char < first then .error (.invalidRange first char)
      else .ok ⟨(first, char) :: ranges, false⟩
  | _, ranges => .ok ⟨(char, char) :: ranges, false⟩

/-- The ranges in order. A dash that still waits is a character of its own. -/
def finish (progress : ClassProgress) : List (Char × Char) :=
  (if progress.inRange then ('-', '-') :: progress.ranges else progress.ranges).reverse

end ClassProgress

/-- Read the ranges of a class up to its closing bracket. A bracket or dash that comes first is a
character. -/
def readRanges (isFirst : Bool) (progress : ClassProgress) :
    Text → Except GlobError (List (Char × Char) × Text)
  | [] => .error .unclosedClass
  | c :: rest =>
      if c = ']' ∧ !isFirst then .ok (progress.finish, rest)
      else if c = '-' ∧ !isFirst ∧ !progress.inRange then
        readRanges false { progress with inRange := true } rest
      else do readRanges false (← progress.add c) rest

/-- Read a class after its opening bracket. -/
def readClass (text : Text) : Except GlobError (GlobPiece × Text) := do
  let (negated, body) := match text with
    | '!' :: rest => (true, rest)
    | '^' :: rest => (true, rest)
    | rest => (false, rest)
  let (ranges, rest) ← readRanges true ⟨[], false⟩ body
  return (.oneOf negated ranges, rest)

/-- Read a pattern to its end, given fuel for each character. A class that is not closed is an
error, or, where that is allowed, starts with a literal bracket. -/
def readPieces (lenient : Bool) : Nat → Progress → Text → Except GlobError (List GlobPiece)
  | 0, _, _ => .error .unclosedAlternates
  | _, progress, [] =>
      if progress.inGroup then .error .unclosedAlternates else .ok progress.current.reverse
  | fuel + 1, progress, c :: rest =>
      match c with
      | '?' => readPieces lenient fuel (progress.push .one c) rest
      | '*' =>
          match rest with
          | '*' :: after =>
              let (next, after) := progress.readDirs after
              readPieces lenient fuel next after
          | _ => readPieces lenient fuel (progress.push .any c) rest
      | '[' =>
          match readClass rest with
          | .ok (piece, after) => readPieces lenient fuel (progress.push piece ']') after
          | .error .unclosedClass =>
              if lenient then readPieces lenient fuel (progress.push (.literal c) c) rest
              else .error .unclosedClass
          | .error e => .error e
      | '{' => readPieces lenient fuel progress.openGroup rest
      | '}' => do readPieces lenient fuel (← progress.closeGroup) rest
      | ',' =>
          if progress.inGroup then readPieces lenient fuel progress.nextBranch rest
          else readPieces lenient fuel (progress.push (.literal c) c) rest
      | '\\' =>
          match rest with
          | [] => .error .danglingEscape
          | escaped :: after =>
              readPieces lenient fuel (progress.push (.literal escaped) escaped) after
      | c => readPieces lenient fuel (progress.push (.literal c) c) rest

/-- The pieces of a pattern. -/
def ofText (lenient : Bool) (text : Text) : Except GlobError (List GlobPiece) :=
  readPieces lenient (text.length + 1) .start text

end GlobPiece

end TagLift
