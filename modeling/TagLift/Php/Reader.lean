import TagLift.Php.Gap

/-!
# Reading nodes off a source

A reader moves through a source token by token and collects the nodes of the tree level it is on.
What stands between two tokens goes to the level on which the second one is taken: comments in
front of a node stand beside it, and those after its last token are not part of it.

Which words are keywords and where a number ends depends on what may stand at a place, so tokens
are not cut in advance. A closing tag ends a statement where the statement may end, and is passed
like a comment elsewhere.
-/

namespace TagLift

namespace Php

/-- A place between two tokens and the nodes of this level, last one first. -/
structure Reader where
  /-- Where the last token ended. -/
  last : Cursor
  /-- What stands between the last token and the next. -/
  extras : List Extra
  /-- Where the next token starts. -/
  here : Cursor
  nodes : List Node
  /-- Whether a closing tag ends what is being read once it is complete. -/
  closable : Bool
  /-- The words that close the innermost block. -/
  closers : List String
  /-- More than the number of characters of the source. -/
  size : Nat

/-- A step of reading. -/
abbrev Read := StateT Reader (Except SyntaxError)

namespace Read

/-- Go to a place that is the end of a token. -/
def moveTo (cursor : Cursor) : Read Unit :=
  modify fun reader =>
    let gap := Gap.upTo reader.size cursor
    { reader with last := cursor, extras := gap.extras, here := gap.stop }

/-- Add a node to this level. -/
def push (node : Node) : Read Unit :=
  modify fun reader => { reader with nodes := node :: reader.nodes }

/-- Pass what stands in front of the next token. -/
def passGap : Read Unit :=
  modify fun reader =>
    { reader with
      extras := []
      nodes := (reader.extras.map (·.node)).reverse ++ reader.nodes }

/-- Whether a closing tag is ahead that can end a statement. -/
def tagAhead : Read Bool :=
  return (← get).extras.any (·.closes)

/-- The text of the next token on. Where a closing tag ends what is being read, nothing is
ahead. -/
def ahead : Read Text := do
  let reader ← get
  if reader.closable && (← tagAhead) then return [] else return reader.here.rest

def refuse {α : Type} : Read α := do
  throw (← get).here.refusal

/-- Refuse what is ahead unless a condition holds. -/
def require (condition : Bool) : Read Unit := do
  unless condition do refuse

/-- Take the next `n` characters as a token of a kind. -/
def takeAs (kind : NodeKind) (named : Bool) (n : Nat) : Read Unit := do
  passGap
  let start := (← get).here
  let stop := start.advance n
  push ⟨kind, start.spanTo stop, named, []⟩
  moveTo stop

/-- Take the next `n` characters as a token of no interest. -/
def take (n : Nat) : Read Unit :=
  takeAs .other false n

/-- Whether a symbol is ahead. -/
def next (symbol : String) : Read Bool :=
  return symbol.toList.isPrefixOf (← ahead)

def nextIn (symbols : List String) : Read Bool := do
  let text ← ahead
  return symbols.any (·.toList.isPrefixOf text)

/-- Take a step if a condition holds, and say whether both is so. -/
def onlyIf (condition : Bool) (step : Read Bool) : Read Bool :=
  if condition then step else return false

def accept (symbol : String) : Read Bool := do
  if ← next symbol then
    take symbol.length
    return true
  else
    return false

/-- Take the first of these symbols that is ahead, if any. -/
def acceptIn (symbols : List String) : Read Bool := do
  let text ← ahead
  match symbols.find? (·.toList.isPrefixOf text) with
  | some symbol =>
      take symbol.length
      return true
  | none => return false

def expect (symbol : String) : Read Unit := do
  passGap
  require (← accept symbol)

/-- The name ahead; empty if there is none. -/
def word : Read Text := do
  let text ← ahead
  return text.take (nameLength text)

def keyword : Read Text :=
  return (← word).map Char.toLower

/-- Whether this word is ahead, in any letter case. -/
def nextWord (text : String) : Read Bool :=
  return (← keyword) == text.toList

def nextWordIn (words : List String) : Read Bool := do
  let found ← keyword
  return words.any (·.toList == found)

def takeWordAs (kind : NodeKind) (named : Bool) : Read Unit := do
  passGap
  let length := (← word).length
  require (length > 0)
  takeAs kind named length

def takeWord : Read Unit :=
  takeWordAs .other false

/-- Take a word if it is ahead, in any letter case. -/
def acceptWord (text : String) : Read Bool := do
  if ← nextWord text then
    takeWord
    return true
  else
    return false

/-- Take a word, which has to be ahead. -/
def expectWord (text : String) : Read Unit := do
  passGap
  require (← acceptWord text)

/-- Find out about what is ahead and stay in place. -/
def peek {α : Type} (step : Read α) : Read α := do
  let reader ← get
  let result ← step
  set reader
  return result

/-- Repeat a step at most `n` times, as long as it says so. -/
def repeatUpTo (step : Read Bool) : Nat → Read Unit
  | 0 => return
  | n + 1 => do if ← step then repeatUpTo step n

/-- Repeat a step as long as it says so. Every step takes a token. -/
def many (step : Read Bool) : Read Unit := do
  repeatUpTo step (← get).size

/-- Read a step on a level of its own and collect its nodes. -/
def collect {α : Type} (step : Read α) : Read (α × List Node) := do
  let outer := (← get).nodes
  modify fun reader => { reader with nodes := [] }
  let result ← step
  let inner := (← get).nodes.reverse
  modify fun reader => { reader with nodes := outer }
  return (result, inner)

/-- Read a node whose kind is known once it is read. -/
def nodeOf {α : Type} (step : Read (NodeKind × α)) : Read α := do
  passGap
  let ((kind, result), children) ← collect step
  match children.head?, children.getLast? with
  | some first, some last =>
      push ⟨kind, ⟨first.span.start, last.span.stop⟩, true, children⟩
      return result
  | _, _ => refuse

def node {α : Type} (kind : NodeKind) (step : Read α) : Read α :=
  nodeOf do
    return (kind, ← step)

/-- Read a step for which a closing tag ends what is being read or not. -/
def withClosable {α : Type} (closable : Bool) (step : Read α) : Read α := do
  let outer := (← get).closable
  modify fun reader => { reader with closable }
  let result ← step
  modify fun reader => { reader with closable := outer }
  return result

def endable {α : Type} (step : Read α) : Read α :=
  withClosable true step

/-- Read a step that no closing tag ends. -/
def enclosed {α : Type} (step : Read α) : Read α :=
  withClosable false step

/-- Read the statements of a block that these words close. -/
def withClosers {α : Type} (closers : List String) (step : Read α) : Read α := do
  let outer := (← get).closers
  modify fun reader => { reader with closers }
  let result ← step
  modify fun reader => { reader with closers := outer }
  return result

/-- Read a bracketed stretch as a node of a kind. -/
def bracketed {α : Type} (opening closing : String) (kind : NodeKind) (step : Read α) : Read α :=
  node kind do
    require (← next opening)
    takeAs (if opening == "\x7b" then .openBrace else .other) false opening.length
    let result ← enclosed step
    expect closing
    return result

def braced {α : Type} (kind : NodeKind) (step : Read α) : Read α :=
  bracketed "\x7b" "\x7d" kind step

def atEnd : Read Bool :=
  return (← get).here.rest.isEmpty

/-- Read one item or more with commas between them. -/
def commaList1 (item : Read Unit) : Read Unit := do
  item
  many do
    if ← accept "," then
      item
      return true
    else
      return false

/-- Read items with commas between them up to a closing bracket. One comma may follow the last
item, or stand alone. -/
def commaList (closing : String) (item : Read Unit) : Read Unit := do
  unless ← accept "," do
    many do
      if ← next closing then return false
      item
      accept ","

/-- End a statement: with a semicolon, or without one in front of a closing tag. -/
def endStmt : Read Unit := do
  if ← tagAhead then
    modify fun reader =>
      let inside := reader.extras.takeWhile (!·.closes)
      let outside := reader.extras.drop inside.length
      let offset := (outside.head?.map (·.start)).getD reader.here.offset
      let nodes := ⟨.other, ⟨offset, offset⟩, false, []⟩ :: (inside.map (·.node)).reverse
      { reader with extras := outside, nodes := nodes ++ reader.nodes }
  else
    expect ";"

/-- Where no attribute can stand, a mark in front of a square bracket is a comment of its own. -/
def passMark : Read Unit := do
  if ← next "#[" then
    passGap
    let start := (← get).here
    let stop := start.advance 1
    push ⟨.comment, start.spanTo stop, true, []⟩
    moveTo stop

end Read

end Php

end TagLift
