import TagLift.Attribute.Basic
import TagLift.Import.Basic

/-!
# Source units

A source unit is what a migration has to know of one file: its statements, the place after the
opening tag, and the spans of its literals. Of a class it keeps the doc comments and attribute
groups of the class and its methods; any other statement is kept as a span.

A node read from a source has a span. A node without a span is new.
-/

namespace TagLift

/-- A doc comment, from `/**` to `*/`. -/
structure DocComment where
  span : Option Span
  text : Text
deriving DecidableEq, Repr

/-- What a class and a method have in common. -/
structure Declaration where
  name : Text
  /-- From the first attribute or modifier to the end, without the doc comment. -/
  span : Span
  /-- Where a first attribute group goes. -/
  attributeAnchor : Nat
  doc : Option DocComment
  groups : List AttributeGroup
deriving DecidableEq, Repr

namespace Declaration

/-- The span of a declaration with its doc comment. -/
def fullSpan (decl : Declaration) : Span :=
  match decl.doc.bind (·.span) with
  | some span => ⟨min span.start decl.span.start, decl.span.stop⟩
  | none => decl.span

end Declaration

/-- The forms of a class-like declaration. -/
inductive ClassKind where
  | cls
  | trait
  | interface
  | enum
deriving DecidableEq, Repr

/-- A class-like declaration and its methods in order. -/
structure ClassDecl where
  kind : ClassKind
  decl : Declaration
  methods : List Declaration
deriving DecidableEq, Repr

/-- The head of a namespace, up to its semicolon or brace. -/
structure NamespaceHead where
  span : Span
  /-- Where the first statement of the namespace may go. -/
  bodyStart : Nat
  braced : Bool
deriving DecidableEq, Repr

/-- A statement. -/
inductive Stmt where
  /-- A namespace and the statements it owns. -/
  | nspace (head : NamespaceHead) (body : List Stmt)
  /-- A `use` declaration. -/
  | uses (span : Option Span) (imports : List Import)
  /-- A class-like declaration. -/
  | classLike (decl : ClassDecl)
  /-- A statement with class-like declarations somewhere inside. -/
  | enclosing (span : Span) (classes : List ClassDecl)
  /-- An `include` or `require` statement. -/
  | inclusion (span : Span)
  /-- A `declare` statement. -/
  | declare (span : Span)
  /-- Any other statement. -/
  | other (span : Span)
deriving Repr

namespace Stmt

/-- The span of a statement; a class counts from its doc comment on. -/
def span? : Stmt → Option Span
  | .nspace head _ => some head.span
  | .uses span _ => span
  | .classLike decl => some decl.decl.fullSpan
  | .enclosing span _ | .inclusion span | .declare span | .other span => some span

/-- Whether a statement stays in front of the imports of a file. -/
def isPreamble : Stmt → Bool
  | .inclusion _ | .declare _ => true
  | _ => false

def isUse : Stmt → Bool
  | .uses _ _ => true
  | _ => false

def isNamespace : Stmt → Bool
  | .nspace _ _ => true
  | _ => false

theorem nspace_or_plain (stmt : Stmt) :
    (∃ head body, stmt = .nspace head body) ∨ stmt.isNamespace = false := by
  cases stmt with
  | nspace head body => exact .inl ⟨head, body, rfl⟩
  | uses | classLike | enclosing | inclusion | declare | other => exact .inr rfl

/-- The imports of a statement. -/
def imports : Stmt → List Import
  | .uses _ imports => imports
  | _ => []

/-- A new statement for one import. -/
def ofImport (decl : Import) : Stmt :=
  .uses none [decl]

end Stmt

/-- One file. -/
structure SourceUnit where
  stmts : List Stmt
  /-- The offset right after the opening tag, or 0. -/
  headerEnd : Nat
  /-- The spans of strings and inline text, which layout leaves alone. -/
  literals : List Span
deriving Repr

namespace SourceUnit

def firstNamespace? (unit : SourceUnit) : Option Nat :=
  unit.stmts.findIdx? Stmt.isNamespace

end SourceUnit

end TagLift
