import TagLift.Text.Basic

/-!
# Numbers and dates of TOML
-/

namespace TagLift

namespace TomlScalar

/-- Whether a text is digits with single underscores between them. -/
def isDigits (isDigit : Char → Bool) (text : Text) : Bool :=
  (text.splitOn '_').all fun part => !part.isEmpty && part.all isDigit

/-- Whether a text is a decimal number without leading zeros. -/
def isDecimal (text : Text) : Bool :=
  isDigits Char.isDigit text && (text.length == 1 || text.head? != some '0')

/-- The text without a sign. -/
def dropSign : Text → Text
  | '+' :: rest => rest
  | '-' :: rest => rest
  | text => text

def isHexDigit (c : Char) : Bool :=
  c.isDigit || ('a' ≤ c && c ≤ 'f') || ('A' ≤ c && c ≤ 'F')

def isInteger (text : Text) : Bool :=
  match text with
  | '0' :: 'x' :: rest => isDigits isHexDigit rest
  | '0' :: 'o' :: rest => isDigits (fun c => '0' ≤ c && c ≤ '7') rest
  | '0' :: 'b' :: rest => isDigits (fun c => c == '0' || c == '1') rest
  | _ => isDecimal (dropSign text)

def isExponent (text : Text) : Bool :=
  isDigits Char.isDigit (dropSign text)

/-- Whether a text is a fraction, with an exponent or not, after its dot. -/
def isFraction (text : Text) : Bool :=
  let isMark (c : Char) := c == 'e' || c == 'E'
  let digits := text.takeWhile (!isMark ·)
  let rest := text.dropWhile (!isMark ·)
  isDigits Char.isDigit digits && (rest.isEmpty || isExponent rest.tail)

/-- Whether a text is a number with a fraction or an exponent. -/
def isFloat (text : Text) : Bool :=
  let body := dropSign text
  let isMark (c : Char) := c == '.' || c == 'e' || c == 'E'
  let whole := body.takeWhile (!isMark ·)
  match body.dropWhile (!isMark ·) with
  | '.' :: rest => isDecimal whole && isFraction rest
  | _ :: rest => isDecimal whole && isExponent rest
  | [] => body == "inf".toList || body == "nan".toList

/-- The number that digits spell, with underscores between them or not. -/
def natOf (text : Text) : Nat :=
  (text.filter Char.isDigit).foldl (fun value c => 10 * value + (c.toNat - 48)) 0

/-- The least number that is too large to be rounded to a binary fraction of double precision. -/
def hugeBound : Nat :=
  Nat.pow 2 1024 - Nat.pow 2 970

/-- Whether a number with a fraction or an exponent is, without its sign, `hugeBound` or more.
The number is `value * 10 ^ power`; its digits alone decide when `power` is far off. -/
def isHuge (text : Text) : Bool :=
  let body := dropSign text
  let isMark (c : Char) := c == 'e' || c == 'E'
  let digits := (body.takeWhile (!isMark ·)).filter fun c => c.isDigit || c == '.'
  let exponent := (body.dropWhile (!isMark ·)).tail
  let places := (digits.dropWhile (· != '.')).tail.length
  let size : Int := if exponent.head? == some '-' then -(natOf exponent) else natOf exponent
  let value := natOf digits
  let power := size - places
  let magnitude : Int := (Nat.toDigits 10 value).length + power
  isFloat text && value != 0 &&
    (magnitude > 310 ||
      (magnitude > 300 &&
        hugeBound * Nat.pow 10 (-power).toNat ≤ value * Nat.pow 10 power.toNat))

/-- The number that exactly `n` digits spell, and the rest of the text. -/
def digits? (n : Nat) (text : Text) : Option (Nat × Text) :=
  let front := text.take n
  if front.length = n ∧ front.all Char.isDigit then
    some (front.foldl (fun value c => 10 * value + (c.toNat - 48)) 0, text.drop n)
  else none

/-- The rest of a text after a character. -/
def skip? (char : Char) : Text → Option Text
  | c :: rest => if c = char then some rest else none
  | [] => none

/-- How many days a month has. -/
def daysIn (year month : Nat) : Nat :=
  if month = 2 then
    if year % 4 = 0 ∧ (year % 100 ≠ 0 ∨ year % 400 = 0) then 29 else 28
  else if [4, 6, 9, 11].contains month then 30
  else 31

def date? (text : Text) : Option Text := do
  let (year, rest) ← digits? 4 text
  let (month, rest) ← digits? 2 (← skip? '-' rest)
  let (day, rest) ← digits? 2 (← skip? '-' rest)
  if 1 ≤ month ∧ month ≤ 12 ∧ 1 ≤ day ∧ day ≤ daysIn year month then some rest else none

/-- Read the fraction of a second, if there is one. -/
def fraction? : Text → Option Text
  | '.' :: rest => if rest.head?.any Char.isDigit then some (rest.dropWhile Char.isDigit) else none
  | text => some text

/-- Read a time. Seconds may be left out. -/
def time? (text : Text) : Option Text := do
  let (hour, rest) ← digits? 2 text
  let (minute, rest) ← digits? 2 (← skip? ':' rest)
  if hour > 23 ∨ minute > 59 then none
  else
    match rest with
    | ':' :: rest =>
        let (second, rest) ← digits? 2 rest
        if second > 60 then none else fraction? rest
    | rest => some rest

/-- Whether a text is nothing or a distance from universal time. -/
def isOffset (text : Text) : Bool :=
  match text with
  | [] => true
  | ['Z'] => true
  | ['z'] => true
  | sign :: rest =>
      (sign == '+' || sign == '-') && ((do
        let (hour, rest) ← digits? 2 rest
        let (minute, rest) ← digits? 2 (← skip? ':' rest)
        return hour ≤ 23 && minute ≤ 59 && rest.isEmpty).getD false)

/-- Whether a text is a date, a time, or both. -/
def isDatetime (text : Text) : Bool :=
  match date? text with
  | some [] => true
  | some (c :: rest) =>
      (c == 'T' || c == 't' || c == ' ') && (time? rest).any isOffset
  | none => time? text == some []

/-- Whether a character may be part of a number or date. -/
def isPart (c : Char) : Bool :=
  c.isAlphanum || ['+', '-', '_', '.', ':'].contains c

/-- The front part of a text that may be a number or date. A date and its time may be apart by a
space. -/
def span (text : Text) : Text × Text :=
  let front := text.takeWhile isPart
  let rest := text.dropWhile isPart
  match rest with
  | ' ' :: after =>
      if date? front == some [] && after.head?.any Char.isDigit then
        (front ++ ' ' :: after.takeWhile isPart, after.dropWhile isPart)
      else (front, rest)
  | _ => (front, rest)

end TomlScalar

end TagLift
