import TagLift.Edit.Apply
import TagLift.Layout.Normalize
import TagLift.Print.Diff

/-!
# Printing a changed unit

A unit is printed by editing the source of the old unit, so that what no edit touches stays as it
was. If there is a structural edit at all, a blank line is put after every method and class that
has code on the next line, and the edited text is brought into normal layout outside the old
unit's literals.

The edits may be refused, which is an error. A literal is protected with its old length, and where
that cuts a character of the edited text, printing does not return at all.
-/

namespace TagLift

/-- Why something gives no result: its caller gets an error, or it panics. A panic ends the whole
program, so no caller gets to see it. -/
inductive Halt (ε : Type) where
  | error (cause : ε)
  | panic
deriving DecidableEq, Repr

/-- The same with another error. -/
def Halt.map {ε δ : Type} (f : ε → δ) : Halt ε → Halt δ
  | .error cause => .error (f cause)
  | .panic => .panic

namespace Print

namespace Page

/-- A blank line after the end of a body, if the next line holds code other than a closing
brace. -/
def blankLineAfter (page : Page) (position : Nat) : List Edit :=
  let rest := Text.dropBytes position page.source
  let tail := Text.firstLine rest
  match rest.drop tail.length with
  | [] => []
  | _ :: nextLines =>
      let nextLine := Text.trim (Text.firstLine nextLines)
      if !tail.isAllBlank || nextLine.isEmpty || nextLine.head? = some '}' then []
      else [.insert (position + tail.byteSize + 1) page.newline]

/-- The blank lines after the methods of a class and after the class. -/
def layoutClass (page : Page) (decl : ClassDecl) : List Edit :=
  (decl.methods.flatMap fun method => page.blankLineAfter method.span.stop) ++
    page.blankLineAfter decl.decl.span.stop

mutual

/-- The blank lines in and after a statement. -/
def layoutStmt (page : Page) : Stmt → List Edit
  | .nspace _ body => page.layoutStmts body
  | .classLike decl => page.layoutClass decl
  | .enclosing _ classes => classes.flatMap page.layoutClass
  | _ => []

def layoutStmts (page : Page) : List Stmt → List Edit
  | [] => []
  | stmt :: rest => page.layoutStmt stmt ++ page.layoutStmts rest

end

end Page

end Print

/-- The printed text of a unit and the number of structural edits it took. -/
structure Printed where
  text : Text
  edits : Nat
deriving DecidableEq, Repr

namespace SourceUnit

/-- The structural edits that turn the old unit into this one. -/
def structuralEdits (source : Text) (old new : SourceUnit) : List Edit :=
  (Print.Page.ofSource source).diffStmts ⟨old.headerEnd, [], false⟩ none old.stmts [] new.stmts

/-- Where a literal lies after the edits. -/
def shiftLiteral (edits : List Edit) (span : Span) : Span :=
  let start := (Edit.mapOffset? edits span.start).getD span.start
  ⟨start, start + (span.stop - span.start)⟩

/-- Print a unit that came from the old unit of a source. -/
def print (source : Text) (old new : SourceUnit) : Except (Halt EditError) Printed := do
  let structural := structuralEdits source old new
  if structural.isEmpty then
    return ⟨source, 0⟩
  else
    let page := Print.Page.ofSource source
    let edits := structural ++ page.layoutStmts new.stmts
    let text ← (Edit.apply source edits).mapError .error
    let literals := old.literals.map (shiftLiteral edits)
    match Layout.normalize? page.newline literals text with
    | some text => return ⟨text, structural.length⟩
    | none => throw .panic

end SourceUnit

end TagLift
