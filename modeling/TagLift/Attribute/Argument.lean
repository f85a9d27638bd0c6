import TagLift.Attribute.Basic
import TagLift.Text.Letter
import TagLift.Text.Name

/-!
# Reading arguments

An argument of an attribute is read from its text: an optional parameter name with a colon, and
then a string literal, the name of a class, or some other expression.
-/

namespace TagLift

/-- Replace every occurrence of the characters `a`, `b` by `c`, from left to right. -/
def replacePair (a b c : Char) : Text → Text
  | x :: y :: rest =>
      if x = a ∧ y = b then c :: replacePair a b c rest else x :: replacePair a b c (y :: rest)
  | rest => rest

namespace Expr

/-- The inside of a text between two quotes, if it starts and ends with one. -/
def unquote? (quote : Char) : Text → Option Text
  | c :: rest =>
      if c = quote ∧ rest.getLast? = some quote then some rest.dropLast else none
  | [] => none

/-- The value of the inside of a single-quoted literal: a backslash in front of a quote goes, and
then one of two backslashes. -/
def unescape (inner : Text) : Text :=
  replacePair '\\' '\\' '\\' (replacePair '\\' '\'' '\'' inner)

/-- The class whose name constant a text is. -/
def className? (text : Text) : Option Text := do
  let name ← Name.qualified? text
  let afterColons ← "::".toList.isPrefixOf? (Text.trimStart (text.drop name.length))
  if Text.trimStart afterColons = "class".toList then some name else none

/-- The expression that a text spells. -/
def ofText (text : Text) : Expr :=
  match unquote? '\'' text with
  | some inner => .string (unescape inner) (some text)
  | none =>
      match unquote? '"' text with
      | some inner => .string inner (some text)
      | none =>
          match className? text with
          | some name => .classConst name
          | none => .verbatim text

end Expr

namespace Arg

/-- The characters of a parameter name at the front of a text. -/
def parameterName : Text → Text
  | c :: rest =>
      if c == '_' || isLetter c then
        c :: rest.takeWhile fun c => c == '_' || isLetter c || c.isDigit
      else []
  | [] => []

/-- A parameter name and the text after its colon. A double colon is no such colon. -/
def splitName? (text : Text) : Option (Text × Text) :=
  let name := parameterName text
  if name.isEmpty then none
  else
    match Text.trimStart (text.drop name.length) with
    | ':' :: ':' :: _ => none
    | ':' :: value => some (name, Text.trim value)
    | _ => none

def ofText (text : Text) : Arg :=
  let text := Text.trim text
  match splitName? text with
  | some (name, value) => ⟨some name, Expr.ofText value⟩
  | none => .positional (Expr.ofText text)

end Arg

end TagLift
