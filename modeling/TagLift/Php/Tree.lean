import TagLift.Php.Statement

/-!
# The concrete tree of a PHP file

A file is text up to its first opening tag, and code from there on.
-/

namespace TagLift

namespace Php

/-- The nodes of the statements from a cursor on, to the end of the source. -/
def stmtNodes (code : Cursor) : Except SyntaxError (List Node) := do
  let size := code.rest.length + 2
  let grammar := Grammar.upTo (4 * size)
  let read : Read Unit := do
    Read.moveTo code
    grammar.stmts
    Read.passGap
    Read.require (← Read.atEnd)
  let (_, reader) ← read.run ⟨code, [], code, [], false, [], size⟩
  return reader.nodes.reverse

/-- The nodes of a file: the text in front of its first tag, the tag, and its statements. -/
def fileNodes (source : Text) : Except SyntaxError (List Node) := do
  let start : Cursor :=
    if source.head? = some (Char.ofNat 0xFEFF) then (Cursor.mk 0 source).advance 1 else ⟨0, source⟩
  let length := lengthToTag start.rest
  let text := inlineNodes (inlineText? start length)
  let atTag := start.advance length
  let size := openTagLength atTag.rest
  if size = 0 then return text
  else
    let code := atTag.advance size
    let tag : Node := ⟨.openTag, atTag.spanTo code, true, []⟩
    return text ++ tag :: (← stmtNodes code)

end Php

/-- The concrete tree of a PHP file. -/
def Node.ofSource (source : Text) : Except Php.SyntaxError Node := do
  return ⟨.other, ⟨0, source.byteSize⟩, true, ← Php.fileNodes source⟩

end TagLift
