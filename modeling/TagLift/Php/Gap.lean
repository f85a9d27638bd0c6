import TagLift.Php.Cursor
import TagLift.Php.Lexeme
import TagLift.Tree.Basic

/-!
# What stands between tokens

Between two tokens there may be white space, comments, and stretches of inline text from a
closing tag to the next opening tag.
-/

namespace TagLift

namespace Php

/-- What follows blanks and line comments, given whether a comment is open. -/
def afterMargin : Bool → Text → Text
  | _, [] => []
  | true, c :: rest => afterMargin (c != '\n') rest
  | false, '/' :: '/' :: rest => afterMargin true rest
  | false, c :: rest => if isBlank c then afterMargin false rest else c :: rest

/-- Whether only blanks and line comments stand in front of a closing tag. -/
def closesAhead (text : Text) : Bool :=
  "?>".toList.isPrefixOf (afterMargin false text)

/-- The number of characters in front of the next opening tag. -/
def lengthToTag : Text → Nat
  | [] => 0
  | c :: rest => if openTagLength (c :: rest) > 0 then 0 else lengthToTag rest + 1

/-- The number of characters of inline text after a closing tag. At the front and after a `<`,
blanks and line comments that reach to the end of the source are code again. -/
def inlineLength : Bool → Text → Nat
  | _, [] => 0
  | fresh, c :: rest =>
      if openTagLength (c :: rest) > 0 || (fresh && (afterMargin false (c :: rest)).isEmpty) then 0
      else inlineLength (c == '<') rest + 1

/-- The span of inline text: from its first character on that is no blank, without the blanks
after a last `<`. -/
def inlineText? (cursor : Cursor) (length : Nat) : Option Span :=
  let text := cursor.rest.take length
  let lead := text.takeWhile isBlank
  let body := text.drop lead.length
  let tail := body.reverse.takeWhile (· != '<')
  let kept := if tail.all isBlank then body.take (body.length - tail.length) else body
  if kept.isEmpty then none
  else
    let start := cursor.offset + Text.byteSize lead
    some ⟨start, start + Text.byteSize kept⟩

def inlineNodes (body : Option Span) : List Node :=
  body.toList.map fun span => ⟨.literal, span, true, []⟩

/-- Read from a closing tag up to and with the next opening tag. -/
def readInline (cursor : Cursor) : Node × Cursor :=
  let inside := cursor.advance 2
  let length := inlineLength true inside.rest
  let body := inlineText? inside length
  let ahead := inside.advance length
  let tag := openTagLength ahead.rest
  if tag > 0 then
    let after := ahead.advance tag
    (⟨.other, cursor.spanTo after, true, inlineNodes body⟩, after)
  else
    let stop := (body.map (·.stop)).getD inside.offset
    (⟨.other, ⟨cursor.offset, stop⟩, true, inlineNodes body⟩, ahead)

/-- A comment or inline text between two tokens. -/
structure Extra where
  node : Node
  /-- Where what stands in front of it ended. -/
  start : Nat
  /-- Whether a statement may end there, because a closing tag is ahead. -/
  closes : Bool

/-- What stands between two tokens, and where the second one starts. -/
structure Gap where
  extras : List Extra
  stop : Cursor

namespace Gap

/-- The gap from a cursor on, with at most `n` extras. -/
def upTo : Nat → Cursor → Gap
  | 0, cursor => ⟨[], cursor⟩
  | n + 1, cursor =>
      let ahead := cursor.advance (cursor.rest.takeWhile isSpace).length
      let extra (node : Node) (after : Cursor) : Gap :=
        let later := upTo n after
        ⟨⟨node, cursor.offset, closesAhead cursor.rest⟩ :: later.extras, later.stop⟩
      let length := commentLength ahead.rest
      if length > 0 then
        let after := ahead.advance length
        extra ⟨.comment, ahead.spanTo after, true, []⟩ after
      else if "?>".toList.isPrefixOf ahead.rest then
        let (node, after) := readInline ahead
        extra node after
      else
        ⟨[], ahead⟩

end Gap

end Php

end TagLift
