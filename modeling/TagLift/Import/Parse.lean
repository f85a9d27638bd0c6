import TagLift.Import.Basic

/-!
# Reading a `use` declaration

A declaration names one import, a comma list of imports, or a group of imports with a common
front part. What cannot be read as an item is left out.
-/

namespace TagLift

namespace Import

/-- What follows a keyword and the white space after it. -/
def afterKeyword? (keyword text : Text) : Option Text := do
  let rest ← keyword.isPrefixOf? text
  if rest.head?.any isBlank then some (Text.trimStart rest) else none

/-- The kind that a text starts with, or the given one, and the rest. -/
def splitKind (text : Text) (kind : ImportKind) : ImportKind × Text :=
  match afterKeyword? "function".toList text with
  | some rest => (.function, rest)
  | none =>
      match afterKeyword? "const".toList text with
      | some rest => (.constant, rest)
      | none => (kind, text)

def isAsKeyword (word : Text) : Bool :=
  word.map Char.toLower == "as".toList

/-- Read a name with an optional other name after `as`. -/
def ofItem? (kind : ImportKind) (item : Text) : Option Import :=
  match Text.words item with
  | [name] => some ⟨kind, name.dropWhile (· == '\\'), none⟩
  | [name, keyword, asName] =>
      if isAsKeyword keyword then some ⟨kind, name.dropWhile (· == '\\'), some asName⟩ else none
  | _ => none

/-- Put the front part of a group before the name of an item. -/
def qualify (front : Text) (decl : Import) : Import :=
  { decl with name := front.dropWhile (· == '\\') ++ ['\\'] ++ decl.name }

/-- The imports of a group: the text in front of the brace and the text after it. -/
def ofGroup (kind : ImportKind) (front inner : Text) : List Import :=
  let front := Text.dropEndWhile (· == '\\') (Text.trim front)
  let inner := Text.dropEndWhile (· == '}') (Text.trimEnd inner)
  (inner.splitOn ',').filterMap fun item =>
    let (kind, item) := splitKind (Text.trim item) kind
    (ofItem? kind item).map (qualify front)

def ofList (kind : ImportKind) (body : Text) : List Import :=
  (body.splitOn ',').filterMap fun item => ofItem? kind (Text.trim item)

/-- The imports that a `use` declaration names. -/
def ofDeclaration (text : Text) : List Import :=
  let body := Text.trimEnd (Text.dropEndWhile (· == ';') (Text.trim text))
  match afterKeyword? "use".toList body with
  | none => []
  | some rest =>
      let (kind, rest) := splitKind rest .classLike
      match rest.dropWhile (· != '{') with
      | _ :: inner => ofGroup kind (rest.takeWhile (· != '{')) inner
      | [] => ofList kind rest

end Import

end TagLift
