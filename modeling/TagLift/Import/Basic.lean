import TagLift.Text.Basic

/-!
# Imports

An import brings a class, a function or a constant into scope, under its own name or another.
Imports and the names that a scope requires are kept in order and each once: a list is brought into
order by inserting its elements one by one, and one that is already there is not inserted again.
-/

namespace TagLift

section Sorted

variable {α : Type}

/-- Insert an element into a sorted list unless it is there. -/
def insertSorted (order : α → α → Ordering) (a : α) : List α → List α
  | [] => [a]
  | b :: rest =>
      match order a b with
      | .lt => a :: b :: rest
      | .eq => b :: rest
      | .gt => b :: insertSorted order a rest

/-- The elements of a list in order, each once. -/
def sortUnique (order : α → α → Ordering) : List α → List α
  | [] => []
  | a :: rest => insertSorted order a (sortUnique order rest)

end Sorted

/-- What an import brings into scope. -/
inductive ImportKind where
  | classLike
  | function
  | constant
deriving DecidableEq, Repr

namespace ImportKind

/-- Position of a kind in the order of imports. -/
def rank : ImportKind → Nat
  | .classLike => 0
  | .function => 1
  | .constant => 2

/-- The keyword of a kind and the space after it; classes have none. -/
def keyword : ImportKind → Text
  | .classLike => []
  | .function => "function ".toList
  | .constant => "const ".toList

end ImportKind

/-- An imported name, without a leading backslash, and the name it gets instead, if any. -/
structure Import where
  kind : ImportKind
  name : Text
  asName : Option Text
deriving DecidableEq, Repr

namespace Import

/-- A class imported under its own name. -/
def ofClass (name : Text) : Import :=
  ⟨.classLike, name.dropWhile (· == '\\'), none⟩

/-- The order of optional texts: no text comes first. -/
def compareOption : Option Text → Option Text → Ordering
  | none, none => .eq
  | none, some _ => .lt
  | some _, none => .gt
  | some left, some right => Text.compare left right

/-- The order of imports: by kind, then by name, then by the other name. -/
def order (left right : Import) : Ordering :=
  (Ord.compare left.kind.rank right.kind.rank).then
    ((Text.compare left.name right.name).then (compareOption left.asName right.asName))

/-- The statement that imports one name. -/
def render (decl : Import) : Text :=
  "use ".toList ++ decl.kind.keyword ++ decl.name ++
    (match decl.asName with
      | some asName => " as ".toList ++ asName
      | none => []) ++ [';']

end Import

end TagLift
