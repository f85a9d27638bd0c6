import TagLift.Attribute.Directive
import TagLift.Doc.Strip
import TagLift.Source.Imports

/-!
# Migrating a source unit

Every class is visited in turn. The groups of a class's own doc comment become attributes of the
class. The doc comment of a method gives the method its attributes, and the references to covered
methods wait in the ledger until the class is left and then become attributes of the class.
Traits, interfaces and enums get no attributes themselves. What was migrated is stripped from the
doc comments. When a namespace is left the imports it misses are put in front.
-/

namespace TagLift

namespace Directives

/-- What the doc comment of a class asks for on the class. -/
def onClass (found : Directives) : List Directive :=
  found.groups.map .group

/-- What the doc comment of a method asks for on the method. -/
def onMethod (found : Directives) : List Directive :=
  (if found.test then [.test] else []) ++ found.groups.map .group ++
    found.dataProvider?.toList.map .dataProvider

/-- The kinds of directives that leave the doc comment of a method. -/
def methodKinds (found : Directives) : List DirectiveKind :=
  (if found.test then [.test] else []) ++ (if found.groups.isEmpty then [] else [.group]) ++
    (if found.dataProvider?.isSome then [.dataProvider] else [])

end Directives

namespace Migration

/-- Add the attribute for a directive unless the declaration has it. Its class is required
either way. -/
def addAttribute (decl : Declaration) (directive : Directive) : StateM Ledger Declaration := do
  modify (·.requireImport directive.importName)
  if directive.toGroup.isIn decl.groups then
    return decl
  else
    modify (·.noteInserted)
    return { decl with groups := decl.groups ++ [directive.toGroup] }

/-- Strip the directive lines of the kinds from the doc comment. -/
def stripDoc (kinds : List DirectiveKind) (decl : Declaration) :
    StateM Ledger Declaration := do
  match decl.doc with
  | none => return decl
  | some doc =>
      let text := stripDirectives kinds doc.text
      if text = doc.text then
        return decl
      else
        modify (·.noteStripped)
        return { decl with doc := some { doc with text } }

def migrateClassDoc (decl : Declaration) : StateM Ledger Declaration := do
  match decl.doc with
  | none => return decl
  | some doc =>
      let found := Directives.ofDoc doc.text
      if found.groups.isEmpty then
        return decl
      else
        let decl ← found.onClass.foldlM addAttribute decl
        stripDoc [.group] decl

def migrateMethod (decl : Declaration) : StateM Ledger Declaration := do
  match decl.doc with
  | none => return decl
  | some doc =>
      let found := Directives.ofDoc doc.text
      if found.isEmpty then
        return decl
      else
        for ref in found.covers do
          modify fun ledger => (ledger.recordCovers ref).2
        let decl ← found.onMethod.foldlM addAttribute decl
        stripDoc found.methodKinds decl

/-- Migrate a class and its methods. -/
def migrateClass (decl : ClassDecl) : StateM Ledger ClassDecl := do
  modify (·.enterClass decl.kind decl.decl.name)
  let own ← if decl.kind = .cls then migrateClassDoc decl.decl else pure decl.decl
  let methods ← decl.methods.mapM migrateMethod
  match ← modifyGet Ledger.leaveClass with
  | some ⟨.cls, _, covers⟩ =>
      let own ← (covers.map Directive.covers).foldlM addAttribute own
      return { decl with decl := own, methods }
  | _ => return { decl with decl := own, methods }

/-- Migrate the classes of a statement that is no namespace. -/
def migrateStmt : Stmt → StateM Ledger Stmt
  | .classLike decl => return .classLike (← migrateClass decl)
  | .enclosing span classes => return .enclosing span (← classes.mapM migrateClass)
  | stmt => return stmt

/-- Migrate the top-level statement at an index. -/
def migrateTopStmt (stmt : Stmt) (index : Nat) : StateM Ledger Stmt := do
  match stmt with
  | .nspace head body =>
      modify (·.enterNamespace index)
      let body ← body.mapM migrateStmt
      let required ← modifyGet Ledger.leaveNamespace
      return .nspace head (Stmt.insertMissing required body)
  | stmt => migrateStmt stmt

end Migration

/-- A unit with its doc comment directives turned into attributes, and the ledger of the
migration. -/
def SourceUnit.migrate (unit : SourceUnit) : SourceUnit × Ledger :=
  let (stmts, ledger) :=
    (unit.stmts.zipIdx.mapM fun (stmt, index) => Migration.migrateTopStmt stmt index).run
      Ledger.empty
  ({ unit with stmts }, ledger)

end TagLift
