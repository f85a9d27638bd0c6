import TagLift.Attribute.Basic
import TagLift.Doc.Directive

/-!
# Attributes for directives

Every directive has an attribute class of the PHPUnit framework that says the same. The attribute
is written with its short name, so its class has to be imported.
-/

namespace TagLift

/-- One directive with its value. -/
inductive Directive where
  | test
  | group (value : Text)
  | dataProvider (method : Text)
  | covers (ref : CoversRef)
deriving DecidableEq, Repr

namespace Directive

/-- The namespace of the attribute classes. -/
def attributeNamespace : Text :=
  "PHPUnit\\Framework\\Attributes".toList

def shortName : Directive → Text
  | .test => "Test".toList
  | .group _ => "Group".toList
  | .dataProvider _ => "DataProvider".toList
  | .covers _ => "CoversMethod".toList

/-- The full name of the attribute class. -/
def importName (directive : Directive) : Text :=
  attributeNamespace ++ ['\\'] ++ directive.shortName

/-- The values of the arguments of the attribute. -/
def values : Directive → List Expr
  | .test => []
  | .group value => [.string value none]
  | .dataProvider method => [.string method none]
  | .covers ref => [.classConst ref.className, .string ref.method none]

/-- The new group that says what the directive says. -/
def toGroup (directive : Directive) : AttributeGroup :=
  .single ⟨directive.shortName, directive.values.map Arg.positional⟩

end Directive

end TagLift
