import TagLift.Php.Grammar

/-!
# Classes, traits, interfaces and enums
-/

namespace TagLift

namespace Php

namespace Grammar

open Read

def classNames : Read Unit :=
  commaList1 className

/-- Read a word and the names of classes after it, if the word is ahead. -/
def clause? (text : String) : Read Unit := do
  if ← nextWord text then
    node .other do
      takeWord
      classNames

/-- Read which of two methods of the same name counts, or what a method is also called. -/
def traitRule (g : Grammar) : Read Unit :=
  node .other do
    let isPlain ← peek do
      let isName := !(← nextScope) && !(← nextWordIn ["array", "new", "namespace"])
      if isName && !(← word).isEmpty then
        takeWord
        nextWordIn ["as", "insteadof"]
      else
        return false
    if isPlain then
      takeWord
    else
      discard (g.operand .constant)
    endable do
      if ← acceptWord "insteadof" then
        takeWord
      else
        expectWord "as"
        passGap
        let isMarked ← visibility?
        unless isMarked && (← word).isEmpty do takeWord
      endStmt

def traitUse (g : Grammar) : Read Unit := do
  takeWord
  endable do
    classNames
    if ← next "\x7b" then
      braced .other <| many do
        if (← atEnd) || (← next "\x7d") then return false
        g.traitRule
        return true
    else
      endStmt

def constants (g : Grammar) : Read Unit :=
  endable do
    commaList1 <| node .other do
      takeWord
      expect "="
      g.value
    endStmt

/-- Whether the type of constants is ahead, and not their first name. -/
def nextConstantType : Read Bool := do
  if (← nextBuiltinType) || (← word).isEmpty then return true
  if ← nextScope then return false
  peek do
    takeWord
    return !(← next "=")

/-- Read the constants of a class: their type, if any, and for each a name and a value. -/
def classConstants (g : Grammar) : Read Unit := do
  takeWord
  if ← nextConstantType then type
  g.constants

def methodRest (g : Grammar) : Read Unit := do
  takeWord
  discard (accept "&")
  takeWordAs .name true
  g.parameters
  endable do
    resultType?
    if ← next "\x7b" then g.block else endStmt

/-- Read properties from their type on. -/
def propertiesRest (g : Grammar) : Read Unit := do
  type?
  endable do
    commaList1 <| node .other do
      variableName
      g.initial?
    if ← next "\x7b" then g.hooks else endStmt

def enumCase (g : Grammar) : Read Unit := do
  takeWord
  takeWord
  endable do
    g.initial?
    endStmt

def modifiers : Read Unit :=
  many do
    if ← nextWordIn ["static", "abstract", "final", "readonly", "var"] then
      takeWord
      return true
    else
      visibility?

/-- Read a member of a class or of an enum. -/
def member (g : Grammar) (inEnum : Bool) : Read Unit :=
  nodeOf do
    g.attributes
    let isBare := (← get).nodes.isEmpty
    if inEnum && (← nextWord "case") then
      g.enumCase
      return (.other, ())
    let unmodified := (← get).nodes.length
    modifiers
    let isModified := (← get).nodes.length > unmodified
    if ← nextWord "function" then
      g.methodRest
      return (.method, ())
    else if isBare && !isModified && (← nextWord "use") then
      g.traitUse
    else if !inEnum && (← nextWord "const") then
      g.classConstants
    else if !inEnum && isModified then
      g.propertiesRest
    else
      refuse
    return (.other, ())

def members (g : Grammar) (kind : NodeKind) : Read Unit :=
  braced kind <| many do
    if (← atEnd) || (← next "\x7d") then return false
    g.member (kind == .enumMembers)
    return true

/-- Read a class-like declaration from its modifiers on. -/
def classLikeRest (g : Grammar) : Read NodeKind := do
  let isModified ← nextWordIn ["final", "abstract", "readonly"]
  many do
    if ← nextWordIn ["final", "abstract", "readonly"] then
      takeWord
      return true
    else
      return false
  let kind ←
    if ← nextWord "class" then pure NodeKind.classDecl
    else if isModified then refuse
    else if ← nextWord "trait" then pure NodeKind.traitDecl
    else if ← nextWord "interface" then pure NodeKind.interfaceDecl
    else if ← nextWord "enum" then pure NodeKind.enumDecl
    else refuse
  takeWord
  takeWordAs .name true
  if ← onlyIf (kind == .enumDecl) (accept ":") then
    passGap
    let text ← word
    require (text == "string".toList || text == "int".toList)
    takeWord
  if kind == .classDecl || kind == .interfaceDecl then clause? "extends"
  if kind == .classDecl || kind == .enumDecl then clause? "implements"
  g.members (if kind == .enumDecl then .enumMembers else .members)
  return kind

/-- Read a class without a name. -/
def anonymousClass (g : Grammar) : Read Unit :=
  node .anonymousClass <| enclosed do
    g.attributes
    discard (acceptWord "readonly")
    expectWord "class"
    if ← next "(" then g.arguments
    clause? "extends"
    clause? "implements"
    g.members .members

end Grammar

end Php

end TagLift
