import TagLift.Text.Basic

/-!
# Concrete syntax trees

A concrete tree covers a source text node by node: every node has a kind, a span, and the nodes
inside it in order. Only the kinds that a migration looks at are told apart.
-/

namespace TagLift

/-- What a node of a concrete tree is. -/
inductive NodeKind where
  /-- The opening tag of a file. -/
  | openTag
  | comment
  /-- A namespace definition, with or without a block. -/
  | nspace
  /-- A block of statements in braces. -/
  | block
  | openBrace
  | classDecl
  | traitDecl
  | interfaceDecl
  | enumDecl
  | useDecl
  | declareStmt
  | exprStmt
  /-- An `include` or `require` expression in any of its forms. -/
  | inclusion
  | anonymousClass
  /-- The members of a class, trait or interface. -/
  | members
  | enumMembers
  | method
  | name
  | qualifiedName
  | attributeList
  | attributeGroup
  | attribute
  | arguments
  | argument
  /-- A string, heredoc or inline text. -/
  | literal
  | other
deriving DecidableEq, Repr

/-- A node of a concrete tree. Punctuation is not named. -/
structure Node where
  kind : NodeKind
  span : Span
  named : Bool
  children : List Node
deriving Repr

namespace Node

def text (source : Text) (node : Node) : Text :=
  node.span.slice source

def child? (node : Node) (kind : NodeKind) : Option Node :=
  node.children.find? (·.kind == kind)

mutual

/-- The spans of the outermost literals of a tree, in order. -/
def literals : Node → List Span
  | ⟨kind, span, _, children⟩ => if kind = .literal then [span] else literalsOf children

/-- The spans of the outermost literals of trees side by side. -/
def literalsOf : List Node → List Span
  | [] => []
  | node :: rest => literals node ++ literalsOf rest

end

end Node

end TagLift
