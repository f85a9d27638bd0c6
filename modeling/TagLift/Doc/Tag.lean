import TagLift.Text.Name
import TagLift.Text.Occurrence
import TagLift.Text.Word

/-!
# Tags of a doc comment

A tag is an at sign, a name and, for three of the four tags, a value after white space. A tag may
stand anywhere in a line, and a line may hold several.

The line forms are stricter. Such a line holds a star, white space and one tag, and nothing else
but white space.
-/

namespace TagLift

namespace Tag

/-- Whether a character may stand in the value of a group. -/
def isGroupChar (c : Char) : Bool :=
  !isBlank c && c != '*'

/-- Read `head`, white space and then characters of one class. -/
def valued (head : Text) (inValue : Char → Bool) : Form := fun text => do
  let rest ← head.isPrefixOf? text
  let gap := rest.takeWhile isBlank
  let value := (rest.dropWhile isBlank).takeWhile inValue
  if gap.isEmpty || value.isEmpty then none else some ⟨head ++ gap ++ value, [value]⟩

/-- The marker `@test`. It ends where the word ends. -/
def test : Form := fun text => do
  let rest ← "@test".toList.isPrefixOf? text
  if rest.head?.any isWordChar then none else some ⟨"@test".toList, []⟩

/-- The tag `@group` and its value. -/
def group : Form :=
  valued "@group".toList isGroupChar

/-- The tag `@dataProvider` and the name of a method. -/
def dataProvider : Form :=
  valued "@dataProvider".toList isWordChar

/-- The tag `@covers` with a class, a double colon and a method. -/
def covers : Form := fun text => do
  let rest ← "@covers".toList.isPrefixOf? text
  let gap := rest.takeWhile isBlank
  if gap.isEmpty then none
  let afterGap := rest.dropWhile isBlank
  let className ← Name.qualified? afterGap
  let afterColons ← "::".toList.isPrefixOf? (afterGap.drop className.length)
  let method ← Name.simple? afterColons
  return ⟨"@covers".toList ++ gap ++ className ++ "::".toList ++ method, [className, method]⟩

end Tag

namespace DocLine

/-- What follows the star of a line, if only white space stands before the star. -/
def afterStar? (line : Text) : Option Text :=
  ['*'].isPrefixOf? (line.dropWhile isBlank)

/-- What follows the star and the white space after it, if there is any. -/
def afterStarGap? (line : Text) : Option Text := do
  let rest ← afterStar? line
  if rest.head?.any isBlank then some (rest.dropWhile isBlank) else none

/-- Whether a line holds a star and white space only. -/
def isEmptyLine (line : Text) : Bool :=
  (afterStar? line).any Text.isAllBlank

/-- Whether a line holds nothing but the marker `@test`. -/
def isTestLine (line : Text) : Bool :=
  ((afterStarGap? line).bind "@test".toList.isPrefixOf?).any Text.isAllBlank

/-- Whether a line holds nothing but a tag `head` with a value of one class of characters. -/
def isValuedLine (head : Text) (inValue : Char → Bool) (line : Text) : Bool :=
  ((afterStarGap? line).bind fun body =>
    (Tag.valued head inValue body).map fun found => body.drop found.whole.length).any
      Text.isAllBlank

def isGroupLine (line : Text) : Bool :=
  isValuedLine "@group".toList Tag.isGroupChar line

def isDataProviderLine (line : Text) : Bool :=
  isValuedLine "@dataProvider".toList isWordChar line

end DocLine

end TagLift
