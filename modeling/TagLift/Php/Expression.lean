import TagLift.Php.ClassLike
import TagLift.Php.Quoted

/-!
# Expressions

An expression is read as operands with operators between them; how strongly operators bind is of
no interest here. What matters is where an expression ends, that no operand is missing, that only
what can be assigned to is assigned to, and which strings, attributes and classes it holds.
-/

namespace TagLift

namespace Php

namespace Grammar

open Read

/-- The operators between two operands, longer ones first. -/
def binaryOperators : List String :=
  ["<=>", "===", "!==", "**", "==", "!=", "<>", "<=", ">=", "&&", "||", "??", "<<", ">>", "+", "-",
    "*", "/", "%", ".", "<", ">", "&", "|", "^"]

/-- The operators that change what they are applied to. -/
def updateOperators : List String :=
  ["**=", "<<=", ">>=", "??=", "+=", "-=", "*=", "/=", ".=", "%=", "&=", "|=", "^="]

/-- The operators between two operands that are words. -/
def wordOperators : List String :=
  ["and", "or", "xor"]

/-- The words that include another file. -/
def inclusionWords : List String :=
  ["include", "include_once", "require", "require_once"]

/-- The types that a value can be cast to. -/
def castTypes : List String :=
  ["int", "integer", "float", "double", "real", "string", "binary", "bool", "boolean", "array",
    "object", "unset"]

/-- What was found out about the items of a list. -/
structure Items where
  isValue : Bool
  isTarget : Bool

/-- What the items of a list end with so far. -/
inductive ItemsEnd where
  | start
  | item
  /-- A comma after an item. -/
  | comma
  /-- A comma after nothing. -/
  | gap
deriving DecidableEq, Repr

/-- Read an item of a list, given which forms can be assigned to in it. -/
def item (g : Grammar) (isTarget : Form → Bool) : Read Items :=
  node .other do
    if ← accept "&" then
      g.assignable
      return ⟨true, true⟩
    else if ← accept "..." then
      g.value
      return ⟨true, false⟩
    else
      let form ← g.expr
      if ← next "=>" then
        require form.isValue
        take 2
        if ← accept "&" then
          g.assignable
          return ⟨true, true⟩
        else
          let form ← g.expr
          return ⟨form.isValue, isTarget form⟩
      else
        return ⟨form.isValue, isTarget form⟩

/-- Read at most `n` items and commas of a list. A list with gaps is no value, but a comma may
follow the last item or stand alone. -/
def itemsUpTo (g : Grammar) (closing : String) (isTarget : Form → Bool) :
    Nat → ItemsEnd → Items → Read Items
  | 0, _, _ => refuse
  | n + 1, last, items => do
      if ← next closing then
        return items
      else if ← accept "," then
        match last with
        | .start => g.itemsUpTo closing isTarget n .gap items
        | .item => g.itemsUpTo closing isTarget n .comma items
        | _ => g.itemsUpTo closing isTarget n .comma { items with isValue := false }
      else
        require (last != .item)
        let item ← g.item isTarget
        let items : Items :=
          ⟨items.isValue && item.isValue && last != .gap, items.isTarget && item.isTarget⟩
        require (items.isValue || items.isTarget)
        g.itemsUpTo closing isTarget n .item items

/-- Read the items of a list up to its closing bracket. -/
def items (g : Grammar) (opening closing : String) (isTarget : Form → Bool) : Read Items := do
  bracketed opening closing .other do
    g.itemsUpTo closing isTarget (← get).size .start ⟨true, true⟩

/-- Read a function without a name, from after its attributes on. -/
def closureRest (g : Grammar) : Read Unit := do
  let isArrow ← enclosed do
    passGap
    discard (acceptWord "static")
    let isArrow ← nextWord "fn"
    unless isArrow do require (← nextWord "function")
    takeWord
    discard (accept "&")
    g.parameters
    unless isArrow do
      if ← acceptWord "use" then
        bracketed "(" ")" .other do
          let captured : Read Unit := do
            discard (accept "&")
            variableName
          captured
          many do
            if ← accept "," then
              if ← next ")" then return false
              captured
              return true
            else
              return false
    resultType?
    if isArrow then expect "=>" else g.block
    return isArrow
  if isArrow then g.value

def memberName (g : Grammar) : Read Unit := do
  passGap
  if ← next "\x7b" then braced .other g.value
  else if ← next "$" then g.simpleVariable
  else takeWord

/-- Read an index in square brackets; it may be missing. -/
def index (g : Grammar) : Read Unit :=
  bracketed "[" "]" .other do
    unless ← next "]" do g.value

/-- Read one step of what a class is found through: a member, an index or a static property. -/
def referenceStep (g : Grammar) (onVariable : Bool) : Read Bool := do
  passMark
  if onVariable && (← next "->") then
    take 2
    g.memberName
  else if onVariable && (← next "?->") then
    take 3
    g.memberName
  else if onVariable && (← next "[") then
    g.index
  else if ← accept "::" then
    g.simpleVariable
  else
    return false
  return true

/-- Read what a class is found through: a name, a variable, or an expression in parentheses. -/
def classReference (g : Grammar) : Read Unit := do
  passGap
  if ← next "(" then
    g.parenthesized
  else
    let onVariable ← next "$"
    if onVariable then g.simpleVariable
    else if ← nextWord "namespace" then relativeName
    else className
    if ← g.referenceStep onVariable then many (g.referenceStep true)

/-- Read what is made by `new`. -/
def creation (g : Grammar) : Read Form :=
  node .other do
    takeWord
    passGap
    if (← next "#[") || (← nextWordIn ["class", "readonly"]) then
      g.anonymousClass
      return .created
    else
      g.classReference
      if ← next "(" then
        g.arguments
        return .created
      else
        return .plain

def matchArm (g : Grammar) : Read Unit :=
  node .other do
    unless ← acceptWord "default" do
      g.value
      many do
        unless ← accept "," do return false
        if ← next "=>" then return false
        g.value
        return true
    expect "=>"
    g.value

/-- Whether what is ahead can start an operand, and is not an operator between operands. -/
def nextOperand : Read Bool := do
  let text ← ahead
  match text with
  | [] => return false
  | c :: _ =>
      if !(← word).isEmpty then return !(← nextWordIn ("as" :: "instanceof" :: wordOperators))
      else if ← nextIn ["&&", "!="] then return false
      else if c == '.' then return floatLength text > 1 || "...".toList.isPrefixOf text
      else if c == '<' then return "<<<".toList.isPrefixOf text
      else if c == '#' then return "#[".toList.isPrefixOf text
      else
        return c.isDigit || "$\\'\"([+-~!@&".toList.contains c || c == Char.ofNat 96

/-- Read `yield` with its value, if any. -/
def yielded (g : Grammar) : Read Unit := do
  takeWord
  if ← acceptWord "from" then
    g.value
  else if ← nextOperand then
    let item ← g.item fun _ => false
    require item.isValue

def nextCast : Read Bool :=
  peek <| enclosed do
    if ← accept "(" then
      if ← acceptWord "array" then next ")" else nextWordIn castTypes
    else
      return false

def cast (g : Grammar) (place : Place) : Read Form := do
  enclosed do
    take 1
    takeWord
    expect ")"
  match place with
  | .expression | .unary =>
      let form ← g.valueOperand .unary
      return if form == .var then .var else .plain
  | _ => g.operand .var

/-- Read an operand that starts with a word, without what follows it. -/
def wordOperand (g : Grammar) (place : Place) : Read Form := do
  let inExpression := place == .expression
  let inPrimary := place.admitsPrimary
  if (inExpression && (← nextWordIn inclusionWords)) ||
      (place == .unary && (← nextWordIn ["include", "include_once"])) then
    takeWord
    g.value
    return .compound
  else if inExpression && (← nextWord "yield") then
    g.yielded
    return .compound
  else if inExpression && (← nextWord "match") then
    takeWord
    g.parenthesized
    braced .other (commaList "\x7d" g.matchArm)
    return .compound
  else if inExpression && (← nextWord "list") then
    takeWord
    let items ← g.items "(" ")" Form.isListTarget
    require items.isTarget
    return .targets
  else if place.admitsUnary && (← nextWord "clone") then
    takeWord
    discard (g.valueOperand .primary)
    return .plain
  else if inPrimary && (← nextWordIn ["print", "throw"]) then
    takeWord
    g.value
    return .plain
  else if inPrimary && (← nextWordIn ["fn", "function"]) then
    g.closureRest
    return .plain
  else if inPrimary && (← nextWordIn ["null", "true", "false"]) then
    takeWord
    return .plain
  else if ← nextWord "new" then
    g.creation
  else if ← nextWord "array" then
    takeWord
    let items ← g.items "(" ")" fun _ => false
    require items.isValue
    return .grouped
  else if ← nextWord "namespace" then
    relativeName
    return .name
  else if ← nextScope then
    let isClosure ← peek do
      let isStatic ← nextWord "static"
      takeWord
      passGap
      return inPrimary && isStatic && (← nextWordIn ["fn", "function"])
    if isClosure then
      g.closureRest
      return .plain
    else
      takeWord
      return .scope
  else
    qualifiedName
    return .name

/-- Read an operand without what follows it. -/
def primary (g : Grammar) (place : Place) : Read Form := do
  let text ← ahead
  let number := if place.admitsPrimary then numberLength text else 0
  if number > 0 && number ≥ nameLength text then
    take number
    return .plain
  else
    match ← g.string? with
    | some form => return form
    | none =>
        if nameLength text > 0 then
          g.wordOperand place
        else if ← next "\\" then
          qualifiedName
          return .name
        else if ← next "$" then
          g.simpleVariable
          return .var
        else if ← nextCast then
          g.cast place
        else if ← next "(" then
          g.parenthesized
          return .grouped
        else if ← next "[" then
          let items ← g.items "[" "]" Form.isItemTarget
          return .items items.isValue items.isTarget
        else if place.admitsPrimary && (← next "#[") then
          g.attributes
          g.closureRest
          return .plain
        else
          refuse

/-- Read one step of what follows an operand: a member, arguments, an index, or a counting
operator. -/
def suffix? (g : Grammar) (place : Place) (form : Form) : Read (Option Form) := do
  if form == .scope then passGap
  passMark
  let text ← ahead
  if form.isDereferencable && "->".toList.isPrefixOf text then
    take 2
    g.memberName
    return some .var
  else if form.isDereferencable && "?->".toList.isPrefixOf text then
    take 3
    g.memberName
    return some .var
  else if form.isDereferencable && text.head? == some '[' then
    g.index
    return some .var
  else if (form.isDereferencable || form == .scope) && "::".toList.isPrefixOf text then
    take 2
    passGap
    let isVariable ← next "$"
    g.memberName
    return some (if isVariable then .var else .constant)
  else if form.isCallable && text.head? == some '(' then
    g.arguments
    return some .var
  else if form == .var && place.admitsPrimary && (← nextIn ["++", "--"]) then
    take 2
    return some .plain
  else
    return none

/-- Read at most `n` steps of what follows an operand. -/
def suffixesUpTo (g : Grammar) (place : Place) : Nat → Form → Read Form
  | 0, form => return form
  | n + 1, form => do
      match ← g.suffix? place form with
      | some form => g.suffixesUpTo place n form
      | none => return form

/-- Read what is assigned to a form, or the class it is tested for, if that follows. -/
def applied (g : Grammar) (form : Form) : Read Form := do
  if form.isTarget && (← next "=") && !(← nextIn ["==", "=>"]) then
    take 1
    passGap
    discard (accept "&")
    g.value
    return .compound
  else if ← onlyIf (form == .var) (acceptIn updateOperators) then
    g.value
    return .compound
  else if ← onlyIf form.isUnary (acceptWord "instanceof") then
    g.classReference
    return .compound
  else
    return form

/-- Read an operand with the operators in front of it. -/
def operandAt (g : Grammar) (place : Place) : Read Form := do
  passGap
  unless place.admitsPrimary do passMark
  let form ← do
    if place.admitsPrimary && (← nextIn ["++", "--"]) then
      take 2
      g.assignable
      pure Form.plain
    else if place.admitsUnary && (← nextIn ["+", "-", "~", "!"]) then
      take 1
      discard (g.valueOperand .expression)
      pure Form.plain
    else if ← onlyIf place.admitsUnary (accept "@") then
      discard (g.valueOperand .expression)
      pure Form.compound
    else
      let form ← g.primary place
      g.suffixesUpTo place (← get).size form
  match place with
  | .expression => g.applied form
  | .var =>
      require (form == .var)
      return form
  | .constant =>
      require (form == .constant)
      return form
  | _ => return form

/-- Read an operator and the operand after it. -/
def operatorStep (g : Grammar) : Read Bool := do
  if ← acceptIn binaryOperators then
    discard (g.valueOperand .expression)
    return true
  else if ← nextWordIn wordOperators then
    takeWord
    discard (g.valueOperand .expression)
    return true
  else if ← accept "?" then
    enclosed do
      unless ← next ":" do g.value
    expect ":"
    discard (g.valueOperand .expression)
    return true
  else
    return false

/-- Read the operators and operands that follow an operand. -/
def expressionFrom (g : Grammar) (form : Form) : Read Form := do
  if ← onlyIf form.isValue g.operatorStep then
    many g.operatorStep
    return .compound
  else
    return form

def expression (g : Grammar) : Read Form := do
  g.expressionFrom (← g.operand .expression)

end Grammar

end Php

end TagLift
