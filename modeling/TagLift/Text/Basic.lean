/-!
# Text and byte offsets

A text is a list of characters. Positions in it are byte offsets of its UTF-8 form, so a
character takes as many positions as its encoding has bytes, and an offset may fall inside a
character. Cutting a text at an offset keeps the characters that end at or before it.

White space is the class of the Unicode property `White_Space`. Trimming, indentation and every
tag or line form of a doc comment use this one class.
-/

namespace TagLift

/-- Whether a character has the Unicode property `White_Space`. -/
def isBlank (c : Char) : Bool :=
  let n := c.toNat
  (9 ≤ n && n ≤ 13) || n == 0x20 || n == 0x85 || n == 0xA0 || n == 0x1680 ||
    (0x2000 ≤ n && n ≤ 0x200A) || n == 0x2028 || n == 0x2029 || n == 0x202F ||
    n == 0x205F || n == 0x3000

/-- A text, character by character. -/
abbrev Text := List Char

/-- The bytes of a file or a path. -/
abbrev Bytes := List UInt8

namespace Text

/-- Number of bytes of the UTF-8 form. -/
def byteSize : Text → Nat
  | [] => 0
  | c :: rest => c.utf8Size + byteSize rest

@[simp] theorem byteSize_nil : byteSize [] = 0 := rfl

@[simp] theorem byteSize_cons (c : Char) (text : Text) :
    byteSize (c :: text) = c.utf8Size + byteSize text := rfl

@[simp] theorem byteSize_append (left right : Text) :
    byteSize (left ++ right) = byteSize left + byteSize right := by
  induction left with
  | nil => simp
  | cons c rest ih => simp [ih, Nat.add_assoc]

/-- The longest front part of at most `n` bytes. -/
def takeBytes : Nat → Text → Text
  | _, [] => []
  | n, c :: rest => if c.utf8Size ≤ n then c :: takeBytes (n - c.utf8Size) rest else []

/-- What follows the longest front part of at most `n` bytes. -/
def dropBytes : Nat → Text → Text
  | _, [] => []
  | n, c :: rest => if c.utf8Size ≤ n then dropBytes (n - c.utf8Size) rest else c :: rest

@[simp] theorem takeBytes_append_dropBytes (n : Nat) (text : Text) :
    takeBytes n text ++ dropBytes n text = text := by
  induction text generalizing n with
  | nil => rfl
  | cons c rest ih =>
      simp only [takeBytes, dropBytes]
      split
      next fits => simp [ih]
      next => rfl

/-- Whether a byte offset falls between two characters or at an end. -/
def isBoundary : Nat → Text → Bool
  | 0, _ => true
  | _ + 1, [] => false
  | n + 1, c :: rest => c.utf8Size ≤ n + 1 && isBoundary (n + 1 - c.utf8Size) rest

/-- The bytes `start` to `stop` of a text. -/
def slice (start stop : Nat) (text : Text) : Text :=
  takeBytes (stop - start) (dropBytes start text)

/-- The text without the characters at its end that satisfy `p`. -/
def dropEndWhile (p : Char → Bool) (text : Text) : Text :=
  (text.reverse.dropWhile p).reverse

def trimStart (text : Text) : Text :=
  text.dropWhile isBlank

def trimEnd (text : Text) : Text :=
  text.dropEndWhile isBlank

/-- The text without white space at its ends. -/
def trim (text : Text) : Text :=
  trimEnd (trimStart text)

/-- Whether a text is empty or holds white space only. -/
def isAllBlank (text : Text) : Bool :=
  text.all isBlank

/-- Whether `part` occurs in a text. -/
def hasPart (part : Text) : Text → Bool
  | [] => part.isEmpty
  | c :: rest => part.isPrefixOf (c :: rest) || hasPart part rest

/-- The first line, up to but not including its line feed. -/
def firstLine (text : Text) : Text :=
  text.takeWhile (· != '\n')

/-- The last line, from after the last line feed. -/
def lastLine (text : Text) : Text :=
  (text.reverse.takeWhile (· != '\n')).reverse

/-- The parts between line feeds. -/
def splitLines (text : Text) : List Text :=
  text.splitOn '\n'

/-- The lines joined by line feeds. -/
def joinLines (lines : List Text) : Text :=
  ['\n'].intercalate lines

/-- A line read up to its line feed loses the carriage return right before it. -/
def dropReturn (line : Text) : Text :=
  if line.getLast? = some '\r' then line.dropLast else line

/-- The lines of a text without their line ends. A carriage return belongs to the line end only
in front of a line feed, and an empty last line does not count. -/
def lines (text : Text) : List Text :=
  let parts := text.splitLines
  let last := parts.getLastD []
  parts.dropLast.map dropReturn ++ if last.isEmpty then [] else [last]

/-- The words between runs of white space. -/
def words (text : Text) : List Text :=
  (text.splitOnP isBlank).filter (!·.isEmpty)

/-- The code points compared in order; a proper front part comes first. This is the order of
the UTF-8 forms. -/
def compare (left right : Text) : Ordering :=
  List.compareLex (fun a b : Char => Ord.compare a.toNat b.toNat) left right

/-- The UTF-8 form of a text. -/
def toBytes (text : Text) : Bytes :=
  text.flatMap String.utf8EncodeChar

end Text

/-- The text whose UTF-8 form some bytes are. -/
def Bytes.toText? (bytes : Bytes) : Option Text :=
  (String.fromUTF8? (ByteArray.mk bytes.toArray)).map String.toList

/-- The bytes from `start` up to but not including `stop`. -/
structure Span where
  start : Nat
  stop : Nat
deriving DecidableEq, Repr

def Span.slice (span : Span) (text : Text) : Text :=
  Text.slice span.start span.stop text

end TagLift
