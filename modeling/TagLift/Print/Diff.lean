import TagLift.Edit.Basic
import TagLift.Layout.Normalize
import TagLift.Source.Basic

/-!
# Structural edits

The statements of a new unit are compared with those of the old one that it came from, and every
difference becomes an edit of the source. A new statement and its old self are recognised by
their span. Between two of them, statements that are gone and statements that were added make up
a gap, and a gap becomes a replacement, deletions, or one insertion. A doc comment whose text
changed is replaced, and new attribute groups are inserted.
-/

namespace TagLift

namespace Print

/-- Where statements go in a list without a statement to follow. -/
structure Container where
  anchor : Nat
  indent : Text
  braced : Bool
deriving DecidableEq, Repr

/-- The source of the old unit and its line end. -/
structure Page where
  source : Text
  newline : Text

namespace Page

def ofSource (source : Text) : Page :=
  ⟨source, newlineOf source⟩

/-- What stands between two statements: a blank line, unless both are imports. -/
def separator (page : Page) (indent : Text) (before after : Stmt) : Text :=
  if before.isUse && after.isUse then page.newline ++ indent
  else page.newline ++ page.newline ++ indent

/-- The text of a statement: from the source, or else of its imports. -/
def renderStmt (page : Page) (stmt : Stmt) : Text :=
  match stmt.span? with
  | some span => span.slice page.source
  | none => [' '].intercalate (stmt.imports.map Import.render)

/-- Statements after a given one, each with its separator in front. -/
def renderAfter (page : Page) (indent : Text) (before : Stmt) : List Stmt → Text
  | [] => []
  | stmt :: rest =>
      page.separator indent before stmt ++ page.renderStmt stmt ++
        page.renderAfter indent stmt rest

/-- Statements with separators between them. -/
def renderBlock (page : Page) (indent : Text) : List Stmt → Text
  | [] => []
  | stmt :: rest => page.renderStmt stmt ++ page.renderAfter indent stmt rest

/-- Statements in front of a given one, each with its separator after it. -/
def renderBefore (page : Page) (indent : Text) (next : Stmt) : List Stmt → Text
  | [] => []
  | stmt :: rest =>
      page.renderStmt stmt ++ page.separator indent stmt (rest.headD next) ++
        page.renderBefore indent next rest

/-- The span of a statement, or of its whole line if it stands there alone. A span that cuts a
character stays as it is. -/
def lineSpan (page : Page) (span : Span) : Span :=
  let lead := (Text.takeBytes span.start page.source).lastLine
  let rest := Text.dropBytes span.stop page.source
  let tail := Text.firstLine rest
  if Text.isBoundary span.start page.source && Text.isBoundary span.stop page.source &&
      lead.isAllBlank && tail.isAllBlank then
    let lineEnd := if tail.length < rest.length then 1 else 0
    ⟨span.start - lead.byteSize, span.stop + tail.byteSize + lineEnd⟩
  else span

/-- Delete a statement that came from the source. -/
def deleteStmt (page : Page) (stmt : Stmt) : List Edit :=
  match stmt.span? with
  | some span =>
      let span := page.lineSpan span
      [.delete span.start span.stop]
  | none => []

/-- Insert statements after the one before, or in front of the next one, or at the anchor. -/
def insertStmts (page : Page) (container : Container) (prev next : Option Stmt)
    (added : List Stmt) : Edit :=
  match prev.bind (fun stmt => stmt.span?.map (stmt, ·)) with
  | some (prev, span) =>
      .insert span.stop (page.renderAfter (lineIndent page.source span.start) prev added)
  | none =>
      match next.bind (fun stmt => stmt.span?.map (stmt, ·)) with
      | some (next, span) =>
          .insert span.start (page.renderBefore (lineIndent page.source span.start) next added)
      | none =>
          let block := page.renderBlock container.indent added
          .insert container.anchor
            (if container.braced then page.newline ++ container.indent ++ block ++ page.newline
            else page.newline ++ page.newline ++ container.indent ++ block)

/-- The edits for the deleted and added statements between two that stay. -/
def fillGap (page : Page) (container : Container) (prev next : Option Stmt)
    (deleted added : List Stmt) : List Edit :=
  match deleted, added with
  | [], [] => []
  | [], added => [page.insertStmts container prev next added]
  | deleted, [] => deleted.flatMap page.deleteStmt
  | first :: rest, added =>
      match first.span? with
      | some span =>
          ⟨span.start, span.stop, page.renderBlock (lineIndent page.source span.start) added⟩ ::
            rest.flatMap page.deleteStmt
      | none => []

/-- The edit for a doc comment whose text changed. -/
def docEdit (old new : Declaration) : List Edit :=
  match old.doc, new.doc with
  | some oldDoc, some newDoc =>
      match newDoc.span with
      | some span =>
          if oldDoc.text = newDoc.text then [] else [⟨span.start, span.stop, newDoc.text⟩]
      | none => []
  | _, _ => []

/-- The edit for new attribute groups: after the last old group, each on a line of its own, or
else in front of the declaration. -/
def groupEdit (page : Page) (decl : Declaration) : List Edit :=
  let added := (decl.groups.filter (·.span.isNone)).map AttributeGroup.render
  if added.isEmpty then []
  else
    let indent := lineIndent page.source decl.span.start
    match (decl.groups.filterMap (·.span)).getLast? with
    | some span => [.insert span.stop (added.flatMap (page.newline ++ indent ++ ·))]
    | none => [.insert decl.attributeAnchor (added.flatMap (· ++ page.newline ++ indent))]

def diffDeclaration (page : Page) (old new : Declaration) : List Edit :=
  docEdit old new ++ page.groupEdit new

def diffClass (page : Page) (old new : ClassDecl) : List Edit :=
  page.diffDeclaration old.decl new.decl ++
    (old.methods.zip new.methods).flatMap fun (old, new) => page.diffDeclaration old new

/-- Where statements go in a namespace without a statement to follow. -/
def namespaceContainer (page : Page) (oldHead newHead : NamespaceHead) (oldBody : List Stmt) :
    Container :=
  { anchor := oldHead.bodyStart
    indent :=
      if newHead.braced then
        match oldBody.findSome? Stmt.span? with
        | some span => lineIndent page.source span.start
        | none => "    ".toList
      else []
    braced := oldHead.braced }

/-- The old statements before the first one with the given span, that one, and those after. -/
def splitAtSpan (span : Option Span) : List Stmt → Option (List Stmt × Stmt × List Stmt)
  | [] => none
  | stmt :: rest =>
      if span.isSome ∧ stmt.span? = span then some ([], stmt, rest)
      else (splitAtSpan span rest).map fun (before, found, after) => (stmt :: before, found, after)

mutual

/-- The edits inside a statement that stays. -/
def diffStmt (page : Page) (old : Stmt) : Stmt → List Edit
  | .nspace newHead newBody =>
      match old with
      | .nspace oldHead oldBody =>
          page.diffStmts (page.namespaceContainer oldHead newHead oldBody) none oldBody [] newBody
      | _ => []
  | .classLike new =>
      match old with
      | .classLike old => page.diffClass old new
      | _ => []
  | .enclosing _ newClasses =>
      match old with
      | .enclosing _ oldClasses =>
          (oldClasses.zip newClasses).flatMap fun (old, new) => page.diffClass old new
      | _ => []
  | _ => []

/-- The edits of the new statements against the old ones that are left, given the last statement
that stayed and the statements added since. -/
def diffStmts (page : Page) (container : Container) (prev : Option Stmt) (old added : List Stmt) :
    List Stmt → List Edit
  | [] => page.fillGap container prev none old added
  | stmt :: rest =>
      match splitAtSpan stmt.span? old with
      | some (deleted, survivor, remaining) =>
          page.fillGap container prev (some survivor) deleted added ++
            page.diffStmt survivor stmt ++
            page.diffStmts container (some survivor) remaining [] rest
      | none => page.diffStmts container prev old (added ++ [stmt]) rest

end

end Page

end Print

end TagLift
