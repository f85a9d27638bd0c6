import TagLift.Toml.Basic
import TagLift.Toml.Scalar

/-!
# Reading TOML documents

Readers take a text and give what they read with the rest of the text, or nothing if the text is
malformed. Line breaks inside multi-line strings are read as line feeds. Neither the parts of a
key nor arrays and inline tables inside one another may exceed `maxDepth`.
-/

namespace TagLift

namespace Toml

/-- Whether a character may not stand in strings and comments. -/
def isControl (c : Char) : Bool :=
  (c.toNat < 0x20 && c != '\t') || c.toNat == 0x7F

/-- The text without spaces and tabs in front. -/
def skipSpace (text : Text) : Text :=
  text.dropWhile fun c => c == ' ' || c == '\t'

/-- The text after a line break. -/
def newline? : Text → Option Text
  | '\n' :: rest => some rest
  | '\r' :: '\n' :: rest => some rest
  | _ => none

/-- The text after a comment, which is up to the end of its line. -/
def skipComment : Text → Option Text
  | [] => some []
  | '\n' :: rest => some ('\n' :: rest)
  | '\r' :: '\n' :: rest => some ('\r' :: '\n' :: rest)
  | c :: rest => if isControl c then none else skipComment rest

def skipLines : Nat → Text → Option Text
  | 0, _ => none
  | fuel + 1, text =>
      match skipSpace text with
      | '#' :: rest => do skipLines fuel (← skipComment rest)
      | rest =>
          match newline? rest with
          | some after => skipLines fuel after
          | none => some rest

/-- The text after white space, line breaks and comments. -/
def skipAll (text : Text) : Option Text :=
  skipLines (text.length + 1) text

/-- The text after the end of a line. -/
def endLine (text : Text) : Option Text :=
  let rest := skipSpace text
  let afterComment := match rest with
    | '#' :: body => skipComment body
    | rest => some rest
  match afterComment with
  | some [] => some []
  | some rest => newline? rest
  | none => none

/-- The value of a hexadecimal digit. -/
def hexValue (c : Char) : Nat :=
  if c.isDigit then c.toNat - 48 else c.toLower.toNat - 87

/-- The character with a code point of `n` hexadecimal digits. -/
def codePoint? (n : Nat) (text : Text) : Option (Char × Text) :=
  let digits := text.take n
  let value := digits.foldl (fun value c => 16 * value + hexValue c) 0
  if digits.length = n ∧ digits.all TomlScalar.isHexDigit ∧ value.isValidChar then
    some (Char.ofNat value, text.drop n)
  else none

/-- Read an escape after its backslash. -/
def escape? : Text → Option (Char × Text)
  | 'b' :: rest => some (Char.ofNat 8, rest)
  | 't' :: rest => some ('\t', rest)
  | 'n' :: rest => some ('\n', rest)
  | 'f' :: rest => some (Char.ofNat 12, rest)
  | 'r' :: rest => some ('\r', rest)
  | 'e' :: rest => some (Char.ofNat 27, rest)
  | '"' :: rest => some ('"', rest)
  | '\\' :: rest => some ('\\', rest)
  | 'x' :: rest => codePoint? 2 rest
  | 'u' :: rest => codePoint? 4 rest
  | 'U' :: rest => codePoint? 8 rest
  | _ => none

/-- Read a string in this quote after its opening. Only double quotes know escapes. -/
def quoted (quote : Char) : Nat → Text → Option (Text × Text)
  | 0, _ => none
  | _, [] => none
  | fuel + 1, c :: rest =>
      if c = quote then some ([], rest)
      else if c = '\\' ∧ quote = '"' then do
        let (char, rest) ← escape? rest
        let (body, rest) ← quoted quote fuel rest
        return (char :: body, rest)
      else if isControl c then none
      else do
        let (body, rest) ← quoted quote fuel rest
        return (c :: body, rest)

/-- Where a line that ends in a backslash goes on. -/
def joined? (text : Text) : Option Text :=
  (newline? (skipSpace text)).map fun rest =>
    rest.dropWhile fun c => [' ', '\t', '\n', '\r'].contains c

/-- Read a string in three quotes after its opening. Up to two quotes may stand in front of the
closing ones. -/
def longQuoted (quote : Char) : Nat → Text → Option (Text × Text)
  | 0, _ => none
  | _, [] => none
  | fuel + 1, c :: rest =>
      if c = quote then
        let run := min 5 (((c :: rest).takeWhile (· == quote)).length)
        if run ≥ 3 then some (List.replicate (run - 3) quote, (c :: rest).drop run)
        else do
          let (body, rest) ← longQuoted quote fuel rest
          return (c :: body, rest)
      else if c = '\\' ∧ quote = '"' then
        match joined? rest with
        | some rest => longQuoted quote fuel rest
        | none => do
            let (char, rest) ← escape? rest
            let (body, rest) ← longQuoted quote fuel rest
            return (char :: body, rest)
      else
        match newline? (c :: rest) with
        | some rest => do
            let (body, rest) ← longQuoted quote fuel rest
            return ('\n' :: body, rest)
        | none =>
            if isControl c then none
            else do
              let (body, rest) ← longQuoted quote fuel rest
              return (c :: body, rest)

/-- Read a string. A line break right after three opening quotes is dropped. -/
def string? (text : Text) : Option (Text × Text) :=
  match text with
  | c :: rest =>
      if c = '"' ∨ c = '\'' then
        if [c, c].isPrefixOf rest then
          let body := rest.drop 2
          let body := (newline? body).getD body
          longQuoted c (body.length + 1) body
        else quoted c (rest.length + 1) rest
      else none
  | [] => none

def isKeyChar (c : Char) : Bool :=
  c.isAlphanum || c == '_' || c == '-'

/-- Read one part of a key. -/
def keyPart? (text : Text) : Option (Text × Text) :=
  match text with
  | c :: rest =>
      if c = '"' ∨ c = '\'' then quoted c (rest.length + 1) rest
      else
        let front := text.takeWhile isKeyChar
        if front.isEmpty then none else some (front, text.dropWhile isKeyChar)
  | [] => none

def keyUpTo : Nat → Text → Option (List Text × Text)
  | 0, _ => none
  | fuel + 1, text => do
      let (part, rest) ← keyPart? (skipSpace text)
      match skipSpace rest with
      | '.' :: rest =>
          let (parts, rest) ← keyUpTo fuel rest
          return (part :: parts, rest)
      | rest => return ([part], rest)

/-- How many parts a key may have, and how deep values may be inside one another. -/
def maxDepth : Nat := 80

/-- Read a key, dotted or not, and the white space after it. -/
def key? (text : Text) : Option (List Text × Text) :=
  keyUpTo maxDepth text

/-- Read a number, a date or a truth value. -/
def scalar? (text : Text) : Option (TomlValue × Text) :=
  let (front, rest) := TomlScalar.span text
  if front = "true".toList then some (.boolean true, rest)
  else if front = "false".toList then some (.boolean false, rest)
  else if TomlScalar.isInteger front || TomlScalar.isFloat front then
    if TomlScalar.isHuge front then none else some (.number front, rest)
  else if TomlScalar.isDatetime front then some (.datetime front, rest)
  else none

mutual

/-- Read a value that holds others at most to a depth. -/
def value? : Nat → Nat → Text → Option (TomlValue × Text)
  | 0, _, _ => none
  | fuel + 1, depth, text =>
      match text, depth with
      | '[' :: rest, depth + 1 => do
          let (items, rest) ← items? fuel depth (← skipAll rest)
          return (.array items, rest)
      | '{' :: rest, depth + 1 => do
          let (entries, rest) ← entries? fuel depth [] (← skipAll rest)
          return (.table (TomlItem.toEntries entries), rest)
      | c :: _, _ =>
          if c = '"' ∨ c = '\'' then (string? text).map fun (body, rest) => (.string body, rest)
          else scalar? text
      | [], _ => none

/-- Read the items of an array up to its closing bracket. -/
def items? : Nat → Nat → Text → Option (List TomlValue × Text)
  | 0, _, _ => none
  | fuel + 1, depth, text =>
      match text with
      | ']' :: rest => some ([], rest)
      | text => do
          let (item, rest) ← value? fuel depth text
          match ← skipAll rest with
          | ',' :: rest =>
              let (items, rest) ← items? fuel depth (← skipAll rest)
              return (item :: items, rest)
          | ']' :: rest => return ([item], rest)
          | _ => none

/-- Read the keys of an inline table up to its closing brace, given those before. Lines may end
anywhere but inside a key. -/
def entries? : Nat → Nat → TomlItems → Text → Option (TomlItems × Text)
  | 0, _, _, _ => none
  | fuel + 1, depth, items, text =>
      match text with
      | '}' :: rest => some (items, rest)
      | text => do
          let (key, rest) ← key? text
          let rest ← TomlScalar.skip? '=' (← skipAll rest)
          let (value, rest) ← value? fuel depth (← skipAll rest)
          let items ← TomlItems.insert value key items
          match ← skipAll rest with
          | ',' :: rest => entries? fuel depth items (← skipAll rest)
          | '}' :: rest => return (items, rest)
          | _ => none

end

/-- Read the header of a table after its opening bracket. -/
def header? (text : Text) : Option (List Text × Text) := do
  let (key, rest) ← key? text
  return (key, ← TomlScalar.skip? ']' rest)

/-- Read the lines of a document, given the table they belong to and what was read before. -/
def document? : Nat → List Text → TomlItems → Text → Option TomlItems
  | 0, _, _, _ => none
  | fuel + 1, path, items, text => do
      match ← skipAll text with
      | [] => return items
      | '[' :: '[' :: rest =>
          let (key, rest) ← header? rest
          let rest ← TomlScalar.skip? ']' rest
          let last ← key.getLast?
          let items ← TomlItems.under (TomlItems.openNextTable last) key.dropLast items
          document? fuel key items (← endLine rest)
      | '[' :: rest =>
          let (key, rest) ← header? rest
          let last ← key.getLast?
          let items ← TomlItems.under (TomlItems.openTable last) key.dropLast items
          document? fuel key items (← endLine rest)
      | rest =>
          let (key, rest) ← key? rest
          let rest ← TomlScalar.skip? '=' rest
          let (value, rest) ← value? (rest.length + 1) maxDepth (skipSpace rest)
          let items ← TomlItems.under (TomlItems.insert value key) path items
          document? fuel path items (← endLine rest)

/-- The keys of a document. A byte order mark in front of it does not count. -/
def ofText? (text : Text) : Option (List (Text × TomlValue)) := do
  let text : Text := if text.head? = some (Char.ofNat 0xFEFF) then text.tail else text
  return TomlItem.toEntries (← document? (text.length + 2) [] [] text)

end Toml

end TagLift
