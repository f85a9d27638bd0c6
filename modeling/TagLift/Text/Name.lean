import TagLift.Text.Basic

/-!
# Names

The names of classes and methods as tags and class constants spell them. Only ASCII letters,
digits and the underscore count here, and a class may be qualified with backslashes.
-/

namespace TagLift

namespace Name

/-- Whether a character may start a name. -/
def isStart (c : Char) : Bool :=
  c.isAlpha || c == '_'

/-- Whether a character may continue a name. -/
def isPart (c : Char) : Bool :=
  c.isAlphanum || c == '_'

/-- Whether a character may continue a qualified name. -/
def isQualifiedPart (c : Char) : Bool :=
  isPart c || c == '\\'

/-- Read a name from the front of a text. -/
def simple? (text : Text) : Option Text :=
  match text with
  | c :: rest => if isStart c then some (c :: rest.takeWhile isPart) else none
  | [] => none

/-- Read a qualified name from the front of a text. It may start with one backslash. -/
def qualified? (text : Text) : Option Text :=
  match text with
  | '\\' :: c :: rest =>
      if isStart c then some ('\\' :: c :: rest.takeWhile isQualifiedPart) else none
  | c :: rest => if isStart c then some (c :: rest.takeWhile isQualifiedPart) else none
  | [] => none

end Name

end TagLift
