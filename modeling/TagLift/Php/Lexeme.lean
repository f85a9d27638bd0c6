import TagLift.Text.Basic

/-!
# The smallest pieces of PHP code

Each function here says how many characters of a text form a piece of some sort; zero means that
the text does not start with one.
-/

namespace TagLift

namespace Php

/-- Whether a character is one of the six ASCII blanks. -/
def isBlank (c : Char) : Bool :=
  c == ' ' || (9 ≤ c.toNat && c.toNat ≤ 13)

/-- Whether a character separates tokens. -/
def isSpace (c : Char) : Bool :=
  isBlank c || [0xA0, 0x200B, 0x2060, 0xFEFF].contains c.toNat

def isLineBreak (c : Char) : Bool :=
  c == '\n' || c == '\r'

/-- Whether a character is an ASCII letter or digit or an underscore. -/
def isLabelChar (c : Char) : Bool :=
  c.isAlphanum || c == '_'

/-- Whether a character may start a name. -/
def isNameStart (c : Char) : Bool :=
  c.isAlpha || c == '_' || (0x80 ≤ c.toNat && c.toNat ≤ 0xFFFF && !isSpace c)

/-- Whether a character may continue a name. -/
def isNameChar (c : Char) : Bool :=
  isNameStart c || c.isDigit

def nameLength : Text → Nat
  | c :: rest => if isNameStart c then 1 + (rest.takeWhile isNameChar).length else 0
  | [] => 0

/-- The length of digits with single underscores between them; one may also stand in front. -/
def digitsLength (isDigit : Char → Bool) : Text → Nat
  | '_' :: c :: rest => if isDigit c then digitsLength isDigit rest + 2 else 0
  | c :: rest => if isDigit c then digitsLength isDigit rest + 1 else 0
  | [] => 0

def isBinaryDigit (c : Char) : Bool :=
  c == '0' || c == '1'

def isOctalDigit (c : Char) : Bool :=
  '0' ≤ c && c ≤ '7'

def isHexDigit (c : Char) : Bool :=
  c.isDigit || ('a' ≤ c.toLower && c.toLower ≤ 'f')

/-- The length of a base mark and its digits, of which there has to be one. -/
def basedLength (isDigit : Char → Bool) (digits : Text) : Nat :=
  if digits.head?.any isDigit then 1 + digitsLength isDigit digits else 0

def integerLength : Text → Nat
  | '0' :: rest =>
      match rest with
      | c :: digits =>
          if c.toLower == 'o' then 2 + digitsLength isOctalDigit digits
          else if c.toLower == 'x' then 1 + basedLength isHexDigit digits
          else if c.toLower == 'b' then 1 + basedLength isBinaryDigit digits
          else 1 + digitsLength isOctalDigit rest
      | [] => 1
  | c :: rest => if c.isDigit then 1 + digitsLength Char.isDigit rest else 0
  | [] => 0

def exponentLength : Text → Nat
  | e :: rest =>
      let sign := if rest.head?.any fun c => c == '+' || c == '-' then 1 else 0
      let digits := rest.drop sign
      if e.toLower == 'e' && digits.head?.any Char.isDigit then
        1 + sign + digitsLength Char.isDigit digits
      else 0
  | [] => 0

/-- The length of a number with a point or an exponent. Its digits may be missing, so a point
alone is such a number. -/
def floatLength (text : Text) : Nat :=
  let whole := digitsLength Char.isDigit text
  match text.drop whole with
  | '.' :: rest =>
      let fraction := digitsLength Char.isDigit rest
      whole + 1 + fraction + exponentLength (rest.drop fraction)
  | rest =>
      let exponent := exponentLength rest
      if exponent = 0 then 0 else whole + exponent

def numberLength (text : Text) : Nat :=
  max (integerLength text) (floatLength text)

/-- The length of the rest of a line comment: up to the end of its line or a closing tag. A
question mark at the end of a line takes the line break along. -/
def lineCommentRest : Text → Nat
  | '?' :: '\n' :: _ => 2
  | '?' :: '\r' :: '\n' :: _ => 3
  | '?' :: c :: rest => if c == '>' || c == '\r' then 0 else lineCommentRest rest + 2
  | c :: rest =>
      if isLineBreak c || (c == '?' && rest.isEmpty) then 0 else lineCommentRest rest + 1
  | [] => 0

/-- The length of the rest of a block comment, given what follows its opening. -/
def blockCommentRest? : Text → Option Nat
  | '*' :: '/' :: _ => some 2
  | _ :: rest => (blockCommentRest? rest).map (· + 1)
  | [] => none

/-- The length of a comment. A mark in front of a square bracket starts an attribute. -/
def commentLength : Text → Nat
  | '/' :: '/' :: rest => 2 + lineCommentRest rest
  | '/' :: '*' :: rest =>
      match blockCommentRest? rest with
      | some length => 2 + length
      | none => 0
  | '#' :: '[' :: _ => 0
  | '#' :: c :: rest => if isLineBreak c || c == '?' then 1 else 2 + lineCommentRest rest
  | '#' :: [] => 1
  | _ => 0

/-- The length of the rest of a single-quoted string. -/
def plainStringRest? : Text → Option Nat
  | '\'' :: _ => some 1
  | '\\' :: _ :: rest => (plainStringRest? rest).map (· + 2)
  | _ :: rest => (plainStringRest? rest).map (· + 1)
  | [] => none

/-- The length of an escape in a string. -/
def escapeLength : Text → Nat
  | '\\' :: c :: rest =>
      if "nrtvef\\$\"".toList.contains c then 2
      else if isOctalDigit c then 2 + ((rest.take 2).takeWhile isOctalDigit).length
      else if c == 'x' then
        let digits := ((rest.take 2).takeWhile isHexDigit).length
        if digits = 0 then 0 else 2 + digits
      else if c == 'u' then
        match rest with
        | '{' :: inner =>
            let digits := inner.takeWhile isHexDigit
            if !digits.isEmpty && (inner.drop digits.length).head? == some '}' then
              4 + digits.length
            else 2
        | _ => 2
      else 0
  | _ => 0

def openTagLength : Text → Nat
  | '<' :: '?' :: '=' :: _ => 3
  | '<' :: '?' :: a :: b :: c :: _ =>
      if [a, b, c].map Char.toLower = ['p', 'h', 'p'] then 5 else 0
  | _ => 0

end Php

end TagLift
