import TagLift.Text.Basic

/-!
# Places in a source
-/

namespace TagLift

namespace Php

/-- Why a text is not PHP code. -/
inductive SyntaxError where
  /-- What stands at the offset cannot stand there. -/
  | unexpected (offset : Nat)
  /-- The code ends where more was needed. -/
  | unexpectedEnd
deriving DecidableEq, Repr

/-- A place in a source: its offset and the text from there on. -/
structure Cursor where
  offset : Nat
  rest : Text

namespace Cursor

/-- The cursor after the next `n` characters. -/
def advance (cursor : Cursor) (n : Nat) : Cursor :=
  ⟨cursor.offset + Text.byteSize (cursor.rest.take n), cursor.rest.drop n⟩

def spanTo (first last : Cursor) : Span :=
  ⟨first.offset, last.offset⟩

/-- Why code cannot go on at a cursor. -/
def refusal (cursor : Cursor) : SyntaxError :=
  if cursor.rest.isEmpty then .unexpectedEnd else .unexpected cursor.offset

end Cursor

end Php

end TagLift
