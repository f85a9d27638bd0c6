import TagLift.Php.Grammar

/-!
# Strings

In a double-quoted string, a heredoc or a shell command, `{$` starts an expression up to its
closing brace, `${` a computed variable, and a dollar sign in front of a letter a variable, with
one index or one member if that follows at once. A second index or member is refused.

A document starts with a label and ends with it. The label of a heredoc ends it when it is the
first word of a line. That of a nowdoc also needs a semicolon, a comma, a closing parenthesis or
the end of the line after it.
-/

namespace TagLift

namespace Php

namespace Grammar

open Read

/-- Whether a text starts with a member of the variable in front of it. -/
def startsMember : Text → Bool
  | '-' :: '>' :: c :: _ => isLabelChar c
  | _ => false

/-- Whether a text starts a variable inside a string. -/
def startsVariable : Text → Bool
  | '$' :: c :: _ => c == '{' || (isLabelChar c && !c.isDigit)
  | _ => false

/-- Read an expression up to a closing brace, from a cursor on. -/
def embedded (g : Grammar) (cursor : Cursor) : Read Cursor := do
  moveTo cursor
  g.value
  expect "\x7d"
  return (← get).last

/-- Read the index of a variable inside a string, from after its bracket on. -/
def simpleIndex (cursor : Cursor) : Read Cursor := do
  moveTo cursor
  if ← next "$" then
    variableName
  else if !(← word).isEmpty then
    takeWord
  else
    discard (accept "-")
    passGap
    let length := integerLength (← ahead)
    require (length > 0)
    take length
  expect "]"
  return (← get).last

def refuseAt {α : Type} (cursor : Cursor) : Read α :=
  throw cursor.refusal

/-- Read a variable inside a string with its index or member, from its dollar sign on. -/
def embeddedVariable (g : Grammar) (cursor : Cursor) : Read Cursor := do
  let name := cursor.advance 1
  let after ←
    if name.rest.head? = some '{' then
      g.embedded (name.advance 1)
    else
      let after := name.advance (nameLength name.rest)
      if after.rest.head? = some '[' then
        simpleIndex (after.advance 1)
      else if startsMember after.rest then
        let member := after.advance 2
        let length := nameLength member.rest
        if length = 0 then refuseAt member
        pure (member.advance length)
      else
        pure after
  if after.rest.head? = some '[' || startsMember after.rest then refuseAt after
  return after

/-- Read the rest of a string up to its closing quote, in at most `n` steps. -/
def quotedRest (g : Grammar) (quote : Char) : Nat → Cursor → Read Cursor
  | 0, cursor => refuseAt cursor
  | n + 1, cursor =>
      match cursor.rest with
      | [] => refuseAt cursor
      | '\\' :: _ :: _ => g.quotedRest quote n (cursor.advance 2)
      | '{' :: '$' :: _ => do g.quotedRest quote n (← g.embedded (cursor.advance 1))
      | c :: _ => do
          if startsVariable cursor.rest then
            g.quotedRest quote n (← g.embeddedVariable cursor)
          else if c == quote then
            return cursor.advance 1
          else
            g.quotedRest quote n (cursor.advance 1)

/-- The number of blanks in front of a label that is the next word of a text. -/
def blanksToLabel? (label text : Text) : Option Nat :=
  let blanks := text.takeWhile isBlank
  if (text.drop blanks.length).takeWhile isLabelChar == label then some blanks.length else none

/-- Read the rest of a heredoc, in at most `n` steps. The label counts where text could start
(`fresh`), and only on a new line. -/
def heredocRest (g : Grammar) (label : Text) : Nat → Bool → Cursor → Read Cursor
  | 0, _, cursor => refuseAt cursor
  | n + 1, true, cursor =>
      match blanksToLabel? label cursor.rest with
      | some blanks =>
          if (cursor.rest.take blanks).any isLineBreak then
            return cursor.advance (blanks + label.length)
          else
            refuseAt cursor
      | none =>
          g.heredocRest label n false (cursor.advance (cursor.rest.takeWhile isBlank).length)
  | n + 1, false, cursor =>
      match cursor.rest with
      | [] => refuseAt cursor
      | '\\' :: '\\' :: _ => g.heredocRest label n false (cursor.advance 2)
      | '\\' :: '{' :: _ => g.heredocRest label n false (cursor.advance 2)
      | '{' :: '$' :: _ => do g.heredocRest label n true (← g.embedded (cursor.advance 1))
      | c :: _ => do
          let escape := escapeLength cursor.rest
          if isLineBreak c then
            g.heredocRest label n true cursor
          else if startsVariable cursor.rest then
            g.heredocRest label n true (← g.embeddedVariable cursor)
          else if escape > 0 then
            g.heredocRest label n true (cursor.advance escape)
          else
            g.heredocRest label n false (cursor.advance 1)

/-- Whether what follows the label of a nowdoc lets it end there. -/
def endsNowdoc (text : Text) : Bool :=
  let blanks := text.takeWhile fun c => isBlank c && !isLineBreak c
  (text.drop blanks.length).head?.any fun c => isLineBreak c || c == ';' || c == ',' || c == ')'

/-- The length of the rest of a nowdoc, from the end of a line on. -/
def nowdocRest? (label : Text) : Text → Option Nat
  | [] => none
  | c :: rest =>
      let closing := do
        let blanks ← if isLineBreak c then blanksToLabel? label (c :: rest) else none
        let length := blanks + label.length
        if endsNowdoc ((c :: rest).drop length) then some length else none
      closing.or ((nowdocRest? label rest).map (· + 1))

/-- What follows the label of a document on its line. -/
inductive Opening where
  /-- The label again, which ends the document. -/
  | closed (after : Cursor)
  /-- The end of the line. -/
  | body (start : Cursor)

/-- Read on from the label of a document to the end of its line, past at most `n` comments. -/
def openingFrom (label : Text) : Nat → Cursor → Read Opening
  | 0, cursor => refuseAt cursor
  | n + 1, cursor =>
      match blanksToLabel? label cursor.rest with
      | some blanks => return .closed (cursor.advance (blanks + label.length))
      | none =>
          let blanks := cursor.rest.takeWhile fun c => isSpace c && !isLineBreak c
          let ahead := cursor.advance blanks.length
          match ahead.rest with
          | '\r' :: '\n' :: _ => return .body (ahead.advance 2)
          | c :: _ =>
              let comment := commentLength ahead.rest
              if isLineBreak c then return .body (ahead.advance 1)
              else if comment > 0 then openingFrom label n (ahead.advance comment)
              else refuseAt ahead
          | [] => refuseAt ahead

/-- Read a document from its opening on. -/
def document (g : Grammar) : Read Cursor := do
  moveTo ((← get).here.advance 3)
  let quote := (← ahead).head?.filter fun c => c == '"' || c == '\''
  if quote.isSome then moveTo ((← get).here.advance 1)
  let start := (← get).here
  let label := start.rest.takeWhile isLabelChar
  require !label.isEmpty
  let after := start.advance label.length
  if quote.isSome && after.rest.head? != quote then refuseAt after
  let size := (← get).size
  match ← openingFrom label size (after.advance quote.toList.length) with
  | .closed after => return after
  | .body start =>
      if quote = some '\'' then
        match nowdocRest? label start.rest with
        | some length => return start.advance length
        | none => refuse
      else
        g.heredocRest label (2 * size) true start

/-- Read a string as a node of a kind, given how to go from its start to its end. -/
def stringNode (kind : NodeKind) (body : Cursor → Read Cursor) : Read Unit := do
  passGap
  let start := (← get).here
  let (stop, children) ← collect (enclosed (body start))
  push ⟨kind, start.spanTo stop, true, children⟩
  moveTo stop

/-- Read a double-quoted string or a shell command, whose opening is `n` characters long. -/
def quotedString (g : Grammar) (kind : NodeKind) (quote : Char) (n : Nat) : Read Unit :=
  stringNode kind fun start => do
    g.quotedRest quote (← get).size (start.advance n)

/-- Read a single-quoted string, whose opening is `n` characters long. -/
def plainString (n : Nat) : Read Unit :=
  stringNode .literal fun start =>
    let inside := start.advance n
    match plainStringRest? inside.rest with
    | some length => return inside.advance length
    | none => refuseAt start

/-- Read a string and say what form it has, if one is ahead. -/
def string? (g : Grammar) : Read (Option Form) := do
  let text ← ahead
  let mark := if text.head?.any (·.toLower == 'b') then 1 else 0
  let quote := (text.drop mark).head?
  if quote = some '\'' then
    plainString (mark + 1)
    return some .grouped
  else if quote = some '"' then
    g.quotedString .literal '"' (mark + 1)
    return some .grouped
  else if text.head? = some (Char.ofNat 96) then
    g.quotedString .other (Char.ofNat 96) 1
    return some .plain
  else if "<<<".toList.isPrefixOf text then
    stringNode .literal fun _ => g.document
    return some .grouped
  else
    return none

end Grammar

end Php

end TagLift
