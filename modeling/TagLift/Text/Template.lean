import TagLift.Text.Occurrence

/-!
# Replacement templates

A template is a text in which `$n`, `$name` and `${name}` stand for parts of an occurrence.
Part `0` is the whole occurrence and part `n` its `n`-th part. A name that is no number of a
part stands for nothing, `$$` is a dollar sign, and a dollar sign that starts no reference
stands for itself.
-/

namespace TagLift

namespace Template

/-- Whether a character may stand in a reference without braces. -/
def isNameChar (c : Char) : Bool :=
  c.isAlphanum || c == '_'

/-- The number that a reference spells, with an optional plus sign. -/
def number? (name : Text) : Option Nat :=
  let digits := match name with
    | '+' :: rest => rest
    | _ => name
  if digits.isEmpty || digits.any (!·.isDigit) then none
  else some (digits.foldl (fun n c => 10 * n + (c.toNat - '0'.toNat)) 0)

/-- What a reference stands for. -/
def resolve (found : Occurrence) (name : Text) : Text :=
  match number? name with
  | some n => (found.whole :: found.parts).getD n []
  | none => []

/-- How far the reader of a template is into a reference. -/
inductive Mode where
  | plain
  | dollar
  | name (read : Text)
  | braced (read : Text)
deriving DecidableEq, Repr

/-- The expansion of the rest of a template. -/
def expandFrom (found : Occurrence) : Mode → Text → Text
  | .plain, [] => []
  | .dollar, [] => ['$']
  | .name read, [] => resolve found read
  | .braced read, [] => '$' :: '{' :: read
  | .plain, c :: rest =>
      if c = '$' then expandFrom found .dollar rest
      else c :: expandFrom found .plain rest
  | .dollar, c :: rest =>
      if c = '$' then '$' :: expandFrom found .plain rest
      else if c = '{' ∧ rest.contains '}' then expandFrom found (.braced []) rest
      else if isNameChar c then expandFrom found (.name [c]) rest
      else '$' :: c :: expandFrom found .plain rest
  | .name read, c :: rest =>
      if isNameChar c then expandFrom found (.name (read ++ [c])) rest
      else if c = '$' then resolve found read ++ expandFrom found .dollar rest
      else resolve found read ++ c :: expandFrom found .plain rest
  | .braced read, c :: rest =>
      if c = '}' then resolve found read ++ expandFrom found .plain rest
      else expandFrom found (.braced (read ++ [c])) rest

/-- A template with its references replaced by the parts of an occurrence. -/
def expand (template : Text) (found : Occurrence) : Text :=
  expandFrom found .plain template

end Template

end TagLift
