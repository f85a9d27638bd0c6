import TagLift.Php.Expression

/-!
# Statements

A word starts a statement of its own kind only where such a statement may stand. A word that
closes a block after a colon closes it only there, and is a name elsewhere.
-/

namespace TagLift

namespace Php

namespace Grammar

open Read

def colonBlock (g : Grammar) (words : List String) : Read Unit :=
  node .other do
    expect ":"
    g.stmtsUpTo words

/-- Read the body of a statement: one statement, or those between a colon and the closing word. -/
def body (g : Grammar) (closing : String) : Read Unit := do
  if ← next ":" then
    g.colonBlock [closing]
    expectWord closing
    endStmt
  else
    g.stmt

/-- Read the body of a statement, which a closing tag may stand for. -/
def body? (g : Grammar) (closing : String) : Read Unit := do
  if ← tagAhead then endStmt else g.body closing

/-- Read what follows the condition of an `if` that has a colon. -/
def ifColonRest (g : Grammar) : Read Unit := do
  let closing := ["elseif", "else", "endif"]
  g.colonBlock closing
  many do
    if ← nextWord "elseif" then
      node .other do
        takeWord
        g.parenthesized
        g.colonBlock closing
      return true
    else
      return false
  if ← nextWord "else" then
    node .other do
      takeWord
      g.colonBlock ["endif"]
  expectWord "endif"
  endStmt

/-- Whether an `elseif` without a colon is ahead. One with a colon belongs to an `if` further
out. -/
def nextElseIf (g : Grammar) : Read Bool := do
  if ← nextWord "elseif" then
    peek do
      takeWord
      g.parenthesized
      return !(← next ":")
  else
    return false

/-- Whether an `else` without a colon is ahead. -/
def nextElse : Read Bool := do
  if ← nextWord "else" then
    peek do
      takeWord
      return !(← next ":")
  else
    return false

/-- Read what follows the condition of an `if`. -/
def ifRest (g : Grammar) : Read Unit := do
  g.stmt
  many do
    if ← g.nextElseIf then
      node .other do
        takeWord
        g.parenthesized
        g.stmt
      return true
    else
      return false
  if ← nextElse then
    node .other do
      takeWord
      g.stmt
  else if ← nextWordIn ["elseif", "else"] then
    require ((← get).closers.any (·.toList == (← keyword)))

def ifStmt (g : Grammar) : Read Unit := do
  takeWord
  g.parenthesized
  if ← next ":" then g.ifColonRest else g.ifRest

def whileStmt (g : Grammar) : Read Unit := do
  takeWord
  g.parenthesized
  g.body "endwhile"

def doStmt (g : Grammar) : Read Unit := do
  takeWord
  g.stmt
  expectWord "while"
  g.parenthesized
  endStmt

/-- Read expressions, possibly none, up to a closing symbol. -/
def forClause (g : Grammar) (closing : String) : Read Unit := do
  unless ← next closing do commaList1 g.value

def forStmt (g : Grammar) : Read Unit := do
  takeWord
  bracketed "(" ")" .other do
    g.forClause ";"
    expect ";"
    g.forClause ";"
    expect ";"
    g.forClause ")"
  g.body? "endfor"

/-- Read what a `foreach` loop assigns to, and say whether it is a value too. -/
def foreachTarget (g : Grammar) : Read Bool := do
  if ← accept "&" then
    g.assignable
    return false
  else
    let form ← g.expr
    require (form.isValue || form.isTarget)
    return form.isValue

def foreachStmt (g : Grammar) : Read Unit := do
  takeWord
  bracketed "(" ")" .other do
    g.value
    expectWord "as"
    let isValue ← g.foreachTarget
    if ← onlyIf isValue (accept "=>") then discard g.foreachTarget
  g.body? "endforeach"

/-- Read the cases of a `switch` with the words that end a case. -/
def cases (g : Grammar) (closing : List String) : Read Unit :=
  many do
    unless ← nextWordIn ["case", "default"] do return false
    node .other do
      if ← acceptWord "case" then g.value else takeWord
      unless ← accept ";" do expect ":"
      g.stmtsUpTo (closing ++ ["case", "default"])
    return true

def switchStmt (g : Grammar) : Read Unit := do
  takeWord
  g.parenthesized
  if ← accept ":" then
    g.cases ["endswitch"]
    expectWord "endswitch"
    endStmt
  else
    braced .other (g.cases [])

/-- Read what a `try` block catches, or what it does at last, if that is ahead. -/
def handler? (g : Grammar) : Read Bool := do
  if ← nextWord "catch" then
    node .other do
      takeWord
      bracketed "(" ")" .other do
        qualifiedName
        many do
          if ← accept "|" then
            qualifiedName
            return true
          else
            return false
        if ← next "$" then variableName
      g.block
    return true
  else if ← nextWord "finally" then
    node .other do
      takeWord
      g.block
    return true
  else
    return false

def tryStmt (g : Grammar) : Read Unit := do
  takeWord
  g.block
  require (← g.handler?)
  many g.handler?

/-- Read a number, a string, a truth value or `null`. -/
def literal (g : Grammar) : Read Unit := do
  passGap
  let text ← ahead
  let number := numberLength text
  if number > 0 && number ≥ nameLength text then
    take number
  else if ← nextWordIn ["null", "true", "false"] then
    takeWord
  else
    require ((← g.string?) == some .grouped)

def declareStmt (g : Grammar) : Read Unit := do
  takeWord
  bracketed "(" ")" .other <| node .other do
    let text ← word
    require (["ticks", "encoding", "strict_types"].any (·.toList == text))
    takeWord
    expect "="
    g.literal
  g.body? "enddeclare"

/-- Read a namespace, with a block or without, from its keyword on. -/
def namespaceStmt (g : Grammar) : Read Unit := do
  takeWord
  passGap
  if ← next "\x7b" then
    g.block
  else
    endable do
      joinedNames
      if ← next "\x7b" then g.block else endStmt

/-- Take the kind of an import, if it is ahead. -/
def importKind? : Read Unit := do
  passGap
  if ← nextWordIn ["function", "const"] then takeWord

/-- Read what an import is called, if that is ahead. -/
def importedAs? : Read Unit := do
  if ← acceptWord "as" then takeWord

/-- Read an imported name, with its kind and with what it is imported as. -/
def importedName : Read Unit :=
  node .other do
    importKind?
    className
    importedAs?

/-- Read the names that share a front part, up to their closing brace. -/
def importGroup : Read Unit :=
  braced .other (commaList1 importedName)

/-- Read names with backslashes between them, and say whether a group follows the last
backslash. -/
def importPath : Nat → Read Bool
  | 0 => refuse
  | n + 1 => do
      takeWord
      if ← accept "\\" then
        passGap
        if ← next "\x7b" then return true else importPath n
      else
        return false

def useDecl : Read Unit := do
  takeWord
  endable do
    let isGroup ← node .other do
      importKind?
      if ← nextScope then
        takeWord
        importedAs?
        return false
      else
        discard (accept "\\")
        let isGroup ← importPath (← get).size
        if isGroup then importGroup else importedAs?
        return isGroup
    unless isGroup do
      many do
        if ← accept "," then
          importedName
          return true
        else
          return false
    endStmt

/-- Read a function with a name, from its keyword on. -/
def functionRest (g : Grammar) : Read Unit := do
  takeWord
  discard (accept "&")
  takeWord
  g.parameters
  resultType?
  g.block

def staticVariables (g : Grammar) : Read Unit := do
  takeWord
  endable do
    commaList1 <| node .other do
      variableName
      g.initial?
    endStmt

def globalVariables (g : Grammar) : Read Unit := do
  takeWord
  endable do
    commaList1 g.simpleVariable
    endStmt

/-- Read a word and, unless the statement ends, an expression. -/
def wordStmt (g : Grammar) : Read Unit := do
  takeWord
  endable do
    unless (← tagAhead) || (← next ";") do g.value
    endStmt

/-- Read `echo` and expressions after it. -/
def echoStmt (g : Grammar) : Read Unit := do
  takeWord
  endable do
    commaList1 g.value
    endStmt

/-- Read `exit` with its value, if any. -/
def exitStmt (g : Grammar) : Read Unit := do
  takeWord
  endable do
    if ← next "(" then
      bracketed "(" ")" .other do
        unless ← next ")" do g.value
    endStmt

def unsetStmt (g : Grammar) : Read Unit := do
  takeWord
  bracketed "(" ")" .other do
    g.assignable
    many do
      if ← accept "," then
        if ← next ")" then return false
        g.assignable
        return true
      else
        return false
  endStmt

/-- Read a jump to a label. -/
def gotoStmt : Read Unit := do
  takeWord
  takeWord
  endStmt

def constStmt (g : Grammar) : Read Unit := do
  takeWord
  g.constants

def exprStmt (g : Grammar) : Read Unit :=
  node .exprStmt do
    endable do
      if ← nextWordIn inclusionWords then node .inclusion g.value else g.value
      endStmt

def nextClassLike : Read Bool :=
  nextWordIn ["class", "trait", "interface", "enum", "abstract", "final", "readonly"]

/-- Whether a function with a name is ahead. -/
def nextFunction : Read Bool := do
  if ← nextWord "function" then
    peek do
      takeWord
      discard (accept "&")
      return !(← next "(")
  else
    return false

/-- Read a statement that starts with attributes. -/
def attributedStmt (g : Grammar) : Read Unit :=
  nodeOf do
    g.attributes
    if ← nextClassLike then
      return (← g.classLikeRest, ())
    else if ← nextFunction then
      g.functionRest
      return (.other, ())
    else
      endable do
        g.closureRest
        let form ← g.applied .plain
        discard (g.expressionFrom form)
        endStmt
      return (.exprStmt, ())

/-- The statements that start with a word of their own, and the kinds of their nodes. -/
def stmtWords : List (String × NodeKind × (Grammar → Read Unit)) :=
  [("if", .other, ifStmt), ("while", .other, whileStmt), ("do", .other, doStmt),
    ("for", .other, forStmt), ("foreach", .other, foreachStmt), ("switch", .other, switchStmt),
    ("try", .other, tryStmt), ("declare", .declareStmt, declareStmt),
    ("use", .useDecl, fun _ => useDecl), ("const", .other, constStmt), ("return", .other, wordStmt),
    ("break", .other, wordStmt), ("continue", .other, wordStmt), ("echo", .other, echoStmt),
    ("exit", .other, exitStmt), ("goto", .other, fun _ => gotoStmt),
    ("global", .other, globalVariables)]

/-- Whether a word is followed by a symbol. -/
def followedBy (symbol : String) : Read Bool :=
  peek do
    takeWord
    next symbol

def nextLabel : Read Bool := do
  let text ← ahead
  if numberLength text ≥ nameLength text || (← nextScope) ||
      (← nextWordIn (operandWords ++ argumentWords)) then
    return false
  peek do
    takeWord
    return (← endable (next ":")) && !(← next "::")

/-- Read a statement that starts with a word. -/
def wordStatement (g : Grammar) : Read Unit := do
  let text ← keyword
  match stmtWords.find? fun entry => entry.1.toList == text with
  | some (_, kind, read) => node kind (read g)
  | none =>
      if (← word) == "unset".toList then
        node .other g.unsetStmt
      else if ← nextClassLike then
        nodeOf do
          return (← g.classLikeRest, ())
      else if ← nextFunction then
        node .other g.functionRest
      else if (← nextWord "namespace") && !(← followedBy "\\") then
        node .nspace g.namespaceStmt
      else if (← nextWord "static") && (← followedBy "$") then
        node .other g.staticVariables
      else if ← nextLabel then
        node .other do
          takeWord
          take 1
      else
        g.exprStmt

def statement (g : Grammar) : Read Unit := do
  passGap
  if ← next "#[" then g.attributedStmt
  else if ← next "\x7b" then g.block
  else if ← next ";" then
    node .other (take 1)
  else if !(← word).isEmpty then g.wordStatement
  else g.exprStmt

/-- The grammar for nesting up to a depth. -/
def upTo : Nat → Grammar
  | 0 => empty
  | depth + 1 =>
      { expr := fun reader => (upTo depth).expression reader
        operand := fun place reader => (upTo depth).operandAt place reader
        stmt := fun reader => (upTo depth).statement reader }

end Grammar

end Php

end TagLift
