import TagLift.Attribute.Argument
import TagLift.Import.Parse
import TagLift.Tree.PendingDoc

/-!
# From a concrete tree to a source unit

The statements of a unit are the named children of the root, but for comments and the opening
tag. A namespace that ends in a semicolon owns the statements up to the next namespace, and one
with a block owns the statements of its block. A statement other than a class is searched for
classes in its blocks and function bodies; the bodies of classes are not searched.
-/

namespace TagLift

namespace Node

/-- The form of a class-like declaration. -/
def classKind? (node : Node) : Option ClassKind :=
  match node.kind with
  | .classDecl => some .cls
  | .traitDecl => some .trait
  | .interfaceDecl => some .interface
  | .enumDecl => some .enum
  | _ => none

/-- The attribute of a node. A name that is no node of its own is what stands in front of the
parenthesis. -/
def toAttribute (source : Text) (node : Node) : Attribute :=
  let name :=
    match node.children.find? fun child => child.kind == .name || child.kind == .qualifiedName with
    | some name => name.text source
    | none => Text.trim ((node.text source).takeWhile (· != '('))
  let args := ((node.child? .arguments).map (·.children)).getD []
  ⟨name, (args.filter (·.kind == .argument)).map fun arg => Arg.ofText (arg.text source)⟩

def toAttributeGroup (source : Text) (node : Node) : AttributeGroup :=
  ⟨some node.span, (node.children.filter (·.kind == .attribute)).map (toAttribute source)⟩

/-- The declaration of a class or method node. -/
def toDeclaration (source : Text) (doc : Option DocComment) (node : Node) : Declaration :=
  let firstOther := node.children.find? fun child =>
    child.kind != .attributeList && child.kind != .comment
  let groups := ((node.child? .attributeList).map (·.children)).getD []
  { name := ((node.child? .name).map (text source)).getD []
    span := node.span
    attributeAnchor := (firstOther.map (·.span.start)).getD node.span.start
    doc
    groups := (groups.filter (·.kind == .attributeGroup)).map (toAttributeGroup source) }

/-- The methods among the members of a class. -/
def methodsOf (source : Text) (pending : PendingDoc) : List Node → List Declaration
  | [] => []
  | member :: rest =>
      let later := methodsOf source (pending.observe source member) rest
      if member.kind = .method then
        member.toDeclaration source (pending.docFor source member.span.start) :: later
      else later

def toClass (source : Text) (kind : ClassKind) (doc : Option DocComment) (node : Node) :
    ClassDecl :=
  let body := (node.child? .members).or (node.child? .enumMembers)
  { kind
    decl := node.toDeclaration source doc
    methods := methodsOf source .empty ((body.map (·.children)).getD []) }

mutual

def nestedClasses (source : Text) : Node → List ClassDecl
  | ⟨_, _, _, children⟩ => nestedClassesOf source .empty children

/-- The classes at and inside siblings, given what waits before the first. -/
def nestedClassesOf (source : Text) (pending : PendingDoc) : List Node → List ClassDecl
  | [] => []
  | node :: rest =>
      let later := nestedClassesOf source (pending.observe source node) rest
      match node.classKind? with
      | some kind => node.toClass source kind (pending.docFor source node.span.start) :: later
      | none => if node.kind = .anonymousClass then later else nestedClasses source node ++ later

end

/-- Whether an expression statement is an inclusion. -/
def isInclusion (node : Node) : Bool :=
  ((node.children.find? (·.named)).map (·.kind)) == some .inclusion

/-- The statement of a node, given what waits before it. Comments, punctuation and the opening
tag are no statements. -/
def toStmt? (source : Text) (pending : PendingDoc) (node : Node) : Option Stmt :=
  if node.kind = .comment ∨ node.kind = .openTag ∨ !node.named then none
  else
    match node.classKind? with
    | some kind =>
        some (.classLike (node.toClass source kind (pending.docFor source node.span.start)))
    | none =>
        match node.kind with
        | .useDecl => some (.uses (some node.span) (Import.ofDeclaration (node.text source)))
        | .declareStmt => some (.declare node.span)
        | _ =>
            if node.kind = .exprStmt ∧ node.isInclusion then some (.inclusion node.span)
            else
              match node.nestedClasses source with
              | [] => some (.other node.span)
              | classes => some (.enclosing node.span classes)

/-- What waits after a sibling of statements. Punctuation and the opening tag leave it as it
was. -/
def pendingAfter (source : Text) (pending : PendingDoc) (node : Node) : PendingDoc :=
  if node.kind = .comment ∨ (node.named ∧ node.kind ≠ .openTag) then pending.observe source node
  else pending

/-- The statements of siblings in a block. -/
def blockStmts (source : Text) (pending : PendingDoc) : List Node → List Stmt
  | [] => []
  | node :: rest =>
      (node.toStmt? source pending).toList ++
        blockStmts source (node.pendingAfter source pending) rest

/-- The namespace of a node. One that ends in a semicolon owns no statement yet. -/
def toNamespace (source : Text) (node : Node) : Stmt :=
  match node.child? .block with
  | some body =>
      let bodyStart := match body.children.head? with
        | some first =>
            if first.kind = .openBrace then first.span.stop else body.span.start + 1
        | none => body.span.start + 1
      .nspace ⟨node.span, bodyStart, true⟩ (blockStmts source .empty body.children)
  | none => .nspace ⟨node.span, node.span.stop, false⟩ []

/-- The statements of the root in order, with no statement owned by a namespace that ends in a
semicolon. -/
def rootStmts (source : Text) (pending : PendingDoc) : List Node → List Stmt
  | [] => []
  | node :: rest =>
      if node.kind = .nspace then
        node.toNamespace source :: rootStmts source (pending.observe source node) rest
      else
        (node.toStmt? source pending).toList ++
          rootStmts source (node.pendingAfter source pending) rest

end Node

namespace Stmt

/-- The statements in front of the first namespace, and the rest with every namespace that ends
in a semicolon owning what follows it. -/
def gatherFrom : List Stmt → List Stmt × List Stmt
  | [] => ([], [])
  | stmt :: rest =>
      let (loose, gathered) := gatherFrom rest
      match stmt with
      | .nspace head body =>
          if head.braced then ([], .nspace head body :: loose ++ gathered)
          else ([], .nspace head (body ++ loose) :: gathered)
      | stmt => (stmt :: loose, gathered)

/-- Let every namespace that ends in a semicolon own the statements up to the next namespace. -/
def gather (stmts : List Stmt) : List Stmt :=
  let (loose, gathered) := gatherFrom stmts
  loose ++ gathered

end Stmt

/-- The source unit of a concrete tree. -/
def SourceUnit.ofTree (source : Text) (root : Node) : SourceUnit :=
  { stmts := Stmt.gather (Node.rootStmts source .empty root.children)
    headerEnd := ((root.child? .openTag).map (·.span.stop)).getD 0
    literals := root.literals }

end TagLift
