import TagLift.Ledger

/-!
# The imports of a scope

The resolved imports of a scope are the imports it has and the classes it requires, in order and
each once. They are written one to a statement, in front of a namespace's other statements, or
after the leading inclusions and `declare` statements of a file.
-/

namespace TagLift

namespace Stmt

/-- The imports of the statements, in order. -/
def presentImports (stmts : List Stmt) : List Import :=
  stmts.flatMap imports

/-- Whether the statements import a class, under any name. -/
def importsClass (stmts : List Stmt) (name : Text) : Bool :=
  (presentImports stmts).any fun decl => decl.kind == .classLike && decl.name == name

/-- New statements for the required classes that the statements do not import. -/
def missingImports (required : List Text) (stmts : List Stmt) : List Stmt :=
  ((required.map Import.ofClass).filter (!importsClass stmts ·.name)).map ofImport

/-- The statements with the missing imports in front. -/
def insertMissing (required : List Text) (stmts : List Stmt) : List Stmt :=
  missingImports required stmts ++ stmts

/-- The imports a list of statements should have. -/
def resolvedImports (required : List Text) (stmts : List Stmt) : List Import :=
  sortUnique Import.order (presentImports stmts ++ required.map Import.ofClass)

/-- Whether every `use` declaration holds exactly one import. -/
def hasSingleImports (stmts : List Stmt) : Bool :=
  stmts.all fun stmt => !stmt.isUse || stmt.imports.length == 1

/-- The statements with their imports replaced by the resolved ones, or nothing if there is
nothing to do. -/
def resolve? (required : List Text) (afterPreamble : Bool) (stmts : List Stmt) :
    Option (List Stmt) :=
  let resolved := resolvedImports required stmts
  if required.isEmpty || (hasSingleImports stmts && presentImports stmts == resolved) then none
  else
    let others := stmts.filter (!·.isUse)
    let front := if afterPreamble then others.takeWhile isPreamble else []
    some (front ++ resolved.map ofImport ++ others.drop front.length)

end Stmt

namespace SourceUnit

/-- The scope whose imports are resolved: the first namespace, or else the file. -/
def importScope (unit : SourceUnit) : ImportScope :=
  match unit.firstNamespace? with
  | some index => .nspace index
  | none => .file

/-- Resolve the body of the first namespace of the statements. -/
def resolveFirstNamespace? (required : List Text) : List Stmt → Option (List Stmt)
  | [] => none
  | .nspace head body :: rest =>
      (Stmt.resolve? required false body).map fun body => .nspace head body :: rest
  | stmt :: rest => (resolveFirstNamespace? required rest).map (stmt :: ·)

/-- The unit with the imports of its scope resolved, or nothing if they already are. -/
def resolveImports? (unit : SourceUnit) (ledger : Ledger) : Option SourceUnit :=
  let required := ledger.requiredIn unit.importScope
  let stmts? := match unit.importScope with
    | .file => Stmt.resolve? required true unit.stmts
    | .nspace _ => resolveFirstNamespace? required unit.stmts
  stmts?.map fun stmts => { unit with stmts }

end SourceUnit

end TagLift
