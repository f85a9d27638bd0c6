import TagLift.Glob.Parse

/-!
# Matching paths

A pattern matches a path as a whole, byte by byte. A piece of a pattern is understood through
the rests it can leave of a path, so that a sequence of pieces leaves what the last one leaves
of the rests of the others.
-/

namespace TagLift

namespace Bytes

def slash : UInt8 := 47

/-- Every end part of some bytes, longest first. -/
def suffixes : Bytes → List Bytes
  | [] => [[]]
  | b :: rest => (b :: rest) :: suffixes rest

def afterSlashes : Bytes → List Bytes
  | [] => []
  | b :: rest => if b = slash then rest :: afterSlashes rest else afterSlashes rest

/-- The end parts that start no later than the first slash. -/
def suffixesToSlash : Bytes → List Bytes
  | [] => [[]]
  | b :: rest => (b :: rest) :: if b = slash then [] else suffixesToSlash rest

end Bytes

/-- A pattern, and whether `?` and `*` stop at slashes. -/
structure Glob where
  pieces : List GlobPiece
  stopsAtSlash : Bool
deriving Repr

namespace Glob

open Bytes

/-- The byte ranges of a range of characters: the bytes of both ends one by one, but for the
range from the last byte of the first to the first byte of the last. -/
def byteRanges (range : Char × Char) : List (UInt8 × UInt8) :=
  let single (b : UInt8) := (b, b)
  let first := String.utf8EncodeChar range.1
  let last := String.utf8EncodeChar range.2
  if range.1 = range.2 then first.map single
  else
    match first.getLast?, last.head? with
    | some low, some high => first.dropLast.map single ++ (low, high) :: last.tail.map single
    | _, _ => []

def classHas (negated : Bool) (ranges : List (Char × Char)) (b : UInt8) : Bool :=
  negated != (ranges.flatMap byteRanges).any fun (low, high) => low ≤ b && b ≤ high

mutual

/-- Whether a piece is a choice of nothing. -/
def isVoid : GlobPiece → Bool
  | .alternates branches => areVoidBranches branches
  | _ => false

def areVoid : List GlobPiece → Bool
  | [] => true
  | piece :: rest => isVoid piece && areVoid rest

def areVoidBranches : List (List GlobPiece) → Bool
  | [] => true
  | branch :: rest => areVoid branch && areVoidBranches rest

end

mutual

/-- The rests that a piece can leave. -/
def rests (stopsAtSlash : Bool) : GlobPiece → Bytes → List Bytes
  | .literal char, path => ((String.utf8EncodeChar char).isPrefixOf? path).toList
  | .one, path =>
      match path with
      | b :: rest => if stopsAtSlash && b == slash then [] else [rest]
      | [] => []
  | .any, path => if stopsAtSlash then suffixesToSlash path else suffixes path
  | .leadingDirs, path => path :: afterSlashes path
  | .trailingDirs, path =>
      match path with
      | b :: rest => if b = slash then suffixes rest else []
      | [] => []
  | .innerDirs, path =>
      match path with
      | b :: rest => if b = slash then rest :: afterSlashes rest else []
      | [] => []
  | .oneOf negated ranges, path =>
      match path with
      | b :: rest => if classHas negated ranges b then [rest] else []
      | [] => []
  | .alternates branches, path =>
      if areVoidBranches branches then [path] else restsOfBranches stopsAtSlash branches path

def restsOfAll (stopsAtSlash : Bool) : List GlobPiece → List Bytes → List Bytes
  | [], paths => paths
  | piece :: pieces, paths =>
      restsOfAll stopsAtSlash pieces (paths.flatMap (rests stopsAtSlash piece)).eraseDups

/-- The rests that some branch leaves. A branch of nothing is no choice. -/
def restsOfBranches (stopsAtSlash : Bool) : List (List GlobPiece) → Bytes → List Bytes
  | [], _ => []
  | branch :: branches, path =>
      (if areVoid branch then [] else restsOfAll stopsAtSlash branch [path]) ++
        restsOfBranches stopsAtSlash branches path

end

/-- Whether all pieces are literals, and none is a slash if that is asked for. -/
def areLiterals (withSlash : Bool) (pieces : List GlobPiece) : Bool :=
  pieces.all fun piece => piece.literal?.any fun c => withSlash || c != '/'

/-- The pieces without directories in front. -/
def withoutLeadingDirs : List GlobPiece → List GlobPiece
  | .leadingDirs :: rest => rest
  | pieces => pieces

/-- Whether pieces with directories in front are a name without slashes. -/
def isBaseName : List GlobPiece → Bool
  | .leadingDirs :: rest => !rest.isEmpty && areLiterals false rest
  | _ => false

def isExtension (glob : Glob) : Bool :=
  match glob.pieces with
  | .leadingDirs :: .any :: .literal '.' :: rest => isLast rest
  | .any :: .literal '.' :: rest => !glob.stopsAtSlash && isLast rest
  | _ => false
where
  /-- Whether pieces are literals without dots and slashes. -/
  isLast (pieces : List GlobPiece) : Bool :=
    areLiterals false pieces && !pieces.any (·.isLiteral '.')

/-- Whether pieces are literals with anything, or any directories, in front. -/
def isEnding (glob : Glob) : Bool :=
  match withoutLeadingDirs glob.pieces with
  | .any :: rest => !glob.stopsAtSlash && areLiterals true rest
  | pieces => areLiterals true pieces

/-- Whether a pattern that ends in a dot is decided by the name or the extension of a path. -/
def asksForName (glob : Glob) : Bool :=
  (glob.pieces.getLast?.any (·.isLiteral '.')) &&
    (isBaseName glob.pieces || glob.isExtension || !glob.isEnding)

/-- Whether the last part of a path leads to the directory above. -/
def leadsUp (path : Text) : Bool :=
  path == "..".toList || "/..".toList.isSuffixOf path

/-- Whether a pattern matches a path. A path that leads up has neither a name nor an extension,
and two stars alone match every path. -/
def accepts (glob : Glob) (path : Text) : Bool :=
  match glob.pieces with
  | [.leadingDirs] => true
  | pieces =>
      (restsOfAll glob.stopsAtSlash pieces [path.toBytes]).contains [] &&
        !(glob.asksForName && leadsUp path)

end Glob

end TagLift
