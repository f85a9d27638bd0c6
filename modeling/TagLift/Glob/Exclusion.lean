import TagLift.Glob.Match

/-!
# Excluded paths
-/

namespace TagLift

/-- A pattern that cannot be read, and why. -/
structure InvalidGlob where
  pattern : Text
  cause : GlobError
deriving DecidableEq, Repr

namespace InvalidGlob

def message (invalid : InvalidGlob) : Text :=
  "invalid exclude pattern `".toList ++ invalid.pattern ++ "`: error parsing glob '".toList ++
    invalid.pattern ++ "': ".toList ++ invalid.cause.message

end InvalidGlob

/-- What reads an exclusion pattern as a test of paths. -/
abbrev GlobReader := Text → Except GlobError (Text → Bool)

/-- The test of a pattern whose stars match slashes too. -/
def Glob.reader : GlobReader := fun pattern =>
  (GlobPiece.ofText false pattern).map fun pieces => Glob.accepts ⟨pieces, false⟩

/-- Tests of paths, each of which leaves out the paths that it accepts. -/
structure Exclusion where
  tests : List (Text → Bool)

namespace Exclusion

/-- Read exclusion patterns. Blanks around them do not count, and empty ones are dropped. -/
def ofPatterns (read : GlobReader) (patterns : List Text) : Except InvalidGlob Exclusion := do
  let tests ← ((patterns.map Text.trim).filter (!·.isEmpty)).mapM fun pattern =>
    (read pattern).mapError fun cause => ⟨pattern, cause⟩
  return ⟨tests⟩

def excludes (exclusion : Exclusion) (path : Text) : Bool :=
  exclusion.tests.any (· path)

end Exclusion

end TagLift
