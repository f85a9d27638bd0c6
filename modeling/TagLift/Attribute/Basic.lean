import TagLift.Text.Basic

/-!
# Attributes

An attribute has a name and arguments, and attributes are written in groups, `#[A, B(x, n: y)]`.
A group read from a source remembers its span; a new group has none.
-/

namespace TagLift

/-- The expressions that an argument of an attribute can be. -/
inductive Expr where
  /-- A string literal, with its spelling in the source if it was read from one. -/
  | string (value : Text) (raw : Option Text)
  /-- The name of a class, written `Name::class`. -/
  | classConst (className : Text)
  /-- Any other expression, as written. -/
  | verbatim (text : Text)
deriving DecidableEq, Repr

namespace Expr

/-- A text as the inside of a single-quoted literal: a quote and a backslash get a backslash in
front. -/
def escape : Text → Text
  | [] => []
  | c :: rest => if c = '\'' ∨ c = '\\' then '\\' :: c :: escape rest else c :: escape rest

/-- The text of an expression. A literal with a spelling keeps it. -/
def render : Expr → Text
  | .string _ (some raw) => raw
  | .string value none => '\'' :: escape value ++ ['\'']
  | .classConst className => className ++ "::class".toList
  | .verbatim text => text

def isQuote (c : Char) : Bool :=
  c == '"' || c == '\''

/-- The text of an expression without the quotes at its ends. -/
def canonical (expr : Expr) : Text :=
  Text.dropEndWhile isQuote (expr.render.dropWhile isQuote)

end Expr

/-- An argument, with the name of its parameter if it is given by name. -/
structure Arg where
  name : Option Text
  value : Expr
deriving DecidableEq, Repr

namespace Arg

def positional (value : Expr) : Arg :=
  ⟨none, value⟩

def render (arg : Arg) : Text :=
  match arg.name with
  | some name => name ++ ": ".toList ++ arg.value.render
  | none => arg.value.render

end Arg

/-- A name, as written, and its arguments. -/
structure Attribute where
  name : Text
  args : List Arg
deriving DecidableEq, Repr

namespace Attribute

/-- The text of an attribute. Without arguments there are no parentheses. -/
def render (attr : Attribute) : Text :=
  if attr.args.isEmpty then attr.name
  else attr.name ++ ['('] ++ ", ".toList.intercalate (attr.args.map Arg.render) ++ [')']

/-- Whether two attributes have the same name and arguments with the same canonical texts. The
names of parameters do not count. -/
def same (left right : Attribute) : Bool :=
  left.name == right.name &&
    left.args.map (·.value.canonical) == right.args.map (·.value.canonical)

end Attribute

/-- A group of attributes and its span in the source, if it was read from one. -/
structure AttributeGroup where
  span : Option Span
  attributes : List Attribute
deriving DecidableEq, Repr

namespace AttributeGroup

/-- A new group of one attribute. -/
def single (attr : Attribute) : AttributeGroup :=
  ⟨none, [attr]⟩

def render (group : AttributeGroup) : Text :=
  "#[".toList ++ ", ".toList.intercalate (group.attributes.map Attribute.render) ++ [']']

/-- Whether two groups hold the same attributes in the same order. -/
def same (left right : AttributeGroup) : Bool :=
  left.attributes.length == right.attributes.length &&
    (left.attributes.zip right.attributes).all fun (a, b) => a.same b

/-- Whether some group of a list is the same as this one. -/
def isIn (group : AttributeGroup) (groups : List AttributeGroup) : Bool :=
  groups.any group.same

/-- Append a group unless the same group is already there. -/
def pushUnique (groups : List AttributeGroup) (group : AttributeGroup) : List AttributeGroup :=
  if group.isIn groups then groups else groups ++ [group]

end AttributeGroup

end TagLift
