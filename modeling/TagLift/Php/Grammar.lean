import TagLift.Php.Reader

/-!
# Parts that statements and expressions share

Statements hold expressions, and expressions hold statements through the bodies of functions. A
`Grammar` is what reads the two, so the readers here and in the modules above take one and stay
free of recursion.
-/

namespace TagLift

namespace Php

/-- What was read as an expression or an operand, as far as it decides what may follow. -/
inductive Form where
  /-- Something that can be assigned to. -/
  | var
  /-- A name. -/
  | name
  /-- A constant of a class. -/
  | constant
  /-- A string, or an expression in parentheses. -/
  | grouped
  /-- A list in square brackets: whether it is a value, and whether it can be assigned to. -/
  | items (isValue isTarget : Bool)
  /-- A `list(…)`, which can only be assigned to. -/
  | targets
  /-- An object made from a class, with the parentheses of its arguments. -/
  | created
  /-- `self`, `parent` or `static`, which are no values. -/
  | scope
  /-- Another operand. -/
  | plain
  /-- Operands with operators between them, or what is like them. -/
  | compound
deriving DecidableEq, Repr

namespace Form

def isValue : Form → Bool
  | .items isValue _ => isValue
  | .targets | .scope => false
  | _ => true

def isDereferencable : Form → Bool
  | .items isValue _ => isValue
  | .var | .name | .constant | .grouped | .created => true
  | _ => false

def isCallable : Form → Bool
  | .created => false
  | .scope => true
  | form => form.isDereferencable

/-- Whether a form is one operand with its own operators only. -/
def isUnary (form : Form) : Bool :=
  form.isValue && form != .compound

/-- Whether a form can be assigned to. -/
def isTarget : Form → Bool
  | .items _ isTarget => isTarget
  | .var | .targets => true
  | _ => false

/-- Whether a form can be assigned to inside a list in square brackets. -/
def isItemTarget (form : Form) : Bool :=
  form.isTarget && form != .targets

/-- Whether a form can be assigned to inside a `list(…)`. -/
def isListTarget (form : Form) : Bool :=
  form == .var || form == .targets

end Form

/-- Where an operand stands. -/
inductive Place where
  /-- Where a whole expression may start. -/
  | expression
  /-- After a cast. -/
  | unary
  /-- After `clone`. -/
  | primary
  /-- Where something that can be assigned to has to stand. -/
  | var
  /-- Where a constant of a class has to stand. -/
  | constant
deriving DecidableEq, Repr

namespace Place

/-- Whether an operand with operators of its own may stand here. -/
def admitsUnary : Place → Bool
  | .expression | .unary => true
  | _ => false

/-- Whether an operand without operators, such as a number, may stand here. -/
def admitsPrimary : Place → Bool
  | .expression | .unary | .primary => true
  | _ => false

end Place

/-- The readers of an expression, an operand and a statement. -/
structure Grammar where
  expr : Read Form
  operand : Place → Read Form
  stmt : Read Unit

namespace Grammar

open Read

def empty : Grammar :=
  ⟨refuse, fun _ => refuse, refuse⟩

/-- Read an expression that is a value. -/
def value (g : Grammar) : Read Unit := do
  let form ← g.expr
  require form.isValue

def valueOperand (g : Grammar) (place : Place) : Read Form := do
  let form ← g.operand place
  require form.isValue
  return form

/-- Read something that can be assigned to. -/
def assignable (g : Grammar) : Read Unit :=
  discard (g.operand .var)

/-- Read statements up to a closing brace or one of these words. -/
def stmtsUpTo (g : Grammar) (words : List String) : Read Unit :=
  withClosers words <| many do
    if (← atEnd) || (← next "\x7d") || (← nextWordIn words) then return false
    g.stmt
    return true

def stmts (g : Grammar) : Read Unit :=
  g.stmtsUpTo []

def block (g : Grammar) : Read Unit :=
  braced .block g.stmts

def parenthesized (g : Grammar) : Read Unit :=
  bracketed "(" ")" .other g.value

def variableName : Read Unit := do
  expect "$"
  takeWord

/-- Read a variable without what follows it. Its name may be computed. -/
def simpleVariable (g : Grammar) : Read Unit := do
  expect "$"
  many do
    passGap
    accept "$"
  if ← next "\x7b" then braced .other g.value else takeWord

/-- Read a name, and the names after it that a backslash joins to it. -/
def joinedNames : Read Unit := do
  takeWord
  many do
    if ← accept "\\" then
      takeWord
      return true
    else
      return false

def qualifiedName : Read Unit := do
  passGap
  discard (accept "\\")
  joinedNames

/-- Whether one of the words that name a class from inside is ahead. -/
def nextScope : Read Bool := do
  let text ← word
  return text == "self".toList || text == "parent".toList || (← nextWord "static")

/-- Read the name of a class: one from inside, or one that may be qualified. -/
def className : Read Unit := do
  passGap
  if ← nextScope then takeWord else qualifiedName

/-- Read a name that starts with the current namespace. -/
def relativeName : Read Unit := do
  expectWord "namespace"
  expect "\\"
  passGap
  if ← accept "\\" then
    takeWord
    expect "\\"
  joinedNames

/-- The words that start an operand and that no argument can be called by. -/
def operandWords : List String :=
  ["clone", "print", "include", "include_once", "require", "require_once", "yield", "new", "list"]

/-- The words that start an operand and that an argument can be called by. -/
def argumentWords : List String :=
  ["array", "fn", "function", "match", "namespace", "null", "static", "throw", "true", "false"]

def nextArgumentName : Read Bool := do
  let text ← ahead
  let length := nameLength text
  if length = 0 || floatLength text ≥ length || (← nextWordIn operandWords) then return false
  peek do
    takeWord
    return (← next ":") && !(← next "::")

def argument (g : Grammar) : Read Unit :=
  node .argument do
    if ← nextArgumentName then
      takeWord
      take 1
    discard (accept "&")
    if ← accept "..." then
      g.value
    else
      let form ← g.expr
      require (form.isValue || form == .scope)

/-- Whether three dots stand for all arguments. -/
def nextPlaceholder : Read Bool :=
  peek do
    if ← accept "..." then next ")" else return false

def arguments (g : Grammar) : Read Unit :=
  bracketed "(" ")" .arguments do
    if ← nextPlaceholder then take 3 else commaList ")" g.argument

def attributeName : Read Unit :=
  nodeOf do
    if ← nextWord "namespace" then
      relativeName
      return (.other, ())
    else
      let isQualified ← next "\\"
      className
      return (if isQualified || (← get).nodes.length > 1 then .qualifiedName else .name, ())

/-- Read an attribute: its name and its arguments, if any. -/
def attr (g : Grammar) : Read Unit :=
  node .attribute do
    attributeName
    if ← next "(" then g.arguments

/-- Read the attribute groups ahead, if any, as one node. -/
def attributes (g : Grammar) : Read Unit := do
  if ← next "#[" then
    node .attributeList do
      many do
        if ← next "#[" then
          bracketed "#[" "]" .attributeGroup do
            g.attr
            many do
              unless ← accept "," do return false
              if ← next "]" then return false
              g.attr
              return true
          return true
        else
          return false

def builtinTypes : List String :=
  ["array", "iterable", "bool", "float", "int", "string", "void", "mixed", "false", "null", "true"]

def nextBuiltinType : Read Bool := do
  let text ← word
  return builtinTypes.any (·.toList == text) || (← nextWord "callable")

/-- Read a type that is one name. -/
def namedType : Read Unit := do
  passGap
  if ← nextBuiltinType then takeWord else qualifiedName

def typeAtom : Read Unit := do
  passGap
  discard (accept "?")
  namedType

/-- Whether an ampersand ahead joins two types, and does not mark a reference. -/
def nextJoint : Read Bool :=
  peek do
    if ← accept "&" then
      passGap
      return !(← word).isEmpty || (← nextIn ["?", "\\"])
    else
      return false

/-- Read types with ampersands between them. -/
def jointTypes : Read Unit := do
  typeAtom
  many do
    if ← nextJoint then
      take 1
      typeAtom
      return true
    else
      return false

/-- Read one of several types between which a value can choose. -/
def typeChoice : Read Unit := do
  passGap
  if ← next "(" then bracketed "(" ")" .other jointTypes else typeAtom

def type : Read Unit := do
  let isGrouped ← next "("
  typeChoice
  if !isGrouped && (← nextJoint) then
    take 1
    jointTypes
  else
    many do
      if ← accept "|" then
        typeChoice
        return true
      else
        return false

def nextType : Read Bool := do
  return !(← word).isEmpty || (← nextIn ["?", "(", "\\"])

def type? : Read Unit := do
  passGap
  if ← nextType then type

def resultType? : Read Unit := do
  if ← accept ":" then
    passGap
    if (← word) == "never".toList then takeWord else type

/-- Read a word for visibility, with what restricts it to writing, if one is ahead. -/
def visibility? : Read Bool := do
  if ← nextWordIn ["public", "protected", "private"] then
    takeWord
    let isSet ← peek do
      if ← accept "(" then nextWord "set" else return false
    if isSet then bracketed "(" ")" .other takeWord
    return true
  else
    return false

/-- Read a value after an equals sign, if one is ahead. -/
def initial? (g : Grammar) : Read Unit := do
  if ← accept "=" then g.value

/-- Read parameters in parentheses, given how to read the hooks of one. -/
def parametersWith (g : Grammar) (hooks : Read Unit) : Read Unit :=
  bracketed "(" ")" .other <| commaList ")" <| node .other do
    g.attributes
    if ← visibility? then
      discard (acceptWord "readonly")
      type?
      if ← accept "&" then g.assignable else variableName
      g.initial?
      if ← next "\x7b" then hooks
    else
      type?
      discard (accept "&")
      if ← accept "..." then
        variableName
      else
        variableName
        g.initial?

/-- Read one hook of a property, given how to read its parameters. -/
def hookWith (g : Grammar) (parameters : Read Unit) : Read Unit :=
  node .other do
    g.attributes
    discard (acceptWord "final")
    discard (accept "&")
    takeWord
    endable do
      if ← next "(" then parameters
      if ← accept "=>" then
        g.value
        endStmt
      else if ← next "\x7b" then
        g.block
      else
        endStmt

/-- Read the hooks of a property, where parameters nest at most `n` deep. -/
def hooksUpTo (g : Grammar) : Nat → Read Unit
  | 0 => refuse
  | n + 1 =>
      braced .other <| many do
        if (← atEnd) || (← next "\x7d") then return false
        g.hookWith (g.parametersWith (fun reader => g.hooksUpTo n reader))
        return true

def hooks (g : Grammar) : Read Unit := do
  g.hooksUpTo (← get).size

def parameters (g : Grammar) : Read Unit :=
  g.parametersWith g.hooks

end Grammar

end Php

end TagLift
