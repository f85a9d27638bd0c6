import TagLift.Source.Basic
import TagLift.Tree.Basic

/-!
# Doc comments waiting for a declaration

Among the siblings of a tree a doc comment waits for the declaration it documents. Other comments
let it wait, a later doc comment takes its place, and any other node makes it void. It goes to a
declaration when only white space lies between the last comment and the declaration.
-/

namespace TagLift

def isDocComment (text : Text) : Bool :=
  "/**".toList.isPrefixOf text && text != "/**/".toList

/-- The doc comment that waits, and where the last comment ended. -/
structure PendingDoc where
  doc : Option DocComment
  trailEnd : Nat
deriving DecidableEq, Repr

namespace PendingDoc

def empty : PendingDoc :=
  ⟨none, 0⟩

/-- What waits after the next sibling. -/
def observe (source : Text) (pending : PendingDoc) (node : Node) : PendingDoc :=
  if node.kind = .comment then
    let text := node.text source
    ⟨if isDocComment text then some ⟨some node.span, text⟩ else pending.doc, node.span.stop⟩
  else
    { pending with doc := none }

/-- The doc comment for a declaration that starts at an offset. -/
def docFor (source : Text) (pending : PendingDoc) (start : Nat) : Option DocComment :=
  if pending.trailEnd ≤ start ∧ Text.isAllBlank (Text.slice pending.trailEnd start source) then
    pending.doc
  else
    none

end PendingDoc

end TagLift
