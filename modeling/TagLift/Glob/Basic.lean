import TagLift.Text.Basic

/-!
# Glob patterns

A pattern is a sequence of pieces. `?` stands for one byte, `*` for any bytes, `**` between
slashes for any directories, `[…]` for one of some bytes, and `{…,…}` for one of some patterns.
-/

namespace TagLift

/-- One piece of a pattern. -/
inductive GlobPiece where
  | literal (char : Char)
  /-- One byte. -/
  | one
  /-- Any number of bytes. -/
  | any
  /-- Directories in front of a path, or none. -/
  | leadingDirs
  /-- A slash and anything after it. -/
  | trailingDirs
  /-- A slash, or directories between two slashes. -/
  | innerDirs
  /-- One byte that is, or is not, in some range. -/
  | oneOf (negated : Bool) (ranges : List (Char × Char))
  /-- One of some patterns. -/
  | alternates (branches : List (List GlobPiece))
deriving Repr

namespace GlobPiece

def isLiteral (char : Char) : GlobPiece → Bool
  | .literal c => c == char
  | _ => false

def literal? : GlobPiece → Option Char
  | .literal c => some c
  | _ => none

end GlobPiece

/-- Why a text is no pattern. -/
inductive GlobError where
  | unclosedClass
  | invalidRange (first last : Char)
  | unclosedAlternates
  | unopenedAlternates
  | danglingEscape
deriving DecidableEq, Repr

namespace GlobError

def message : GlobError → Text
  | .unclosedClass => "unclosed character class; missing ']'".toList
  | .invalidRange first last =>
      "invalid range; '".toList ++ first :: "' > '".toList ++ last :: "'".toList
  | .unclosedAlternates =>
      "unclosed alternate group; missing '\x7d' (maybe escape '\x7b' with '[\x7b]'?)".toList
  | .unopenedAlternates =>
      "unopened alternate group; missing '\x7b' (maybe escape '\x7d' with '[\x7d]'?)".toList
  | .danglingEscape => "dangling '\\'".toList

end GlobError

end TagLift
