import TagLift.Doc.Tag

/-!
# Directives

The directives of a doc comment are what its tags ask for: run the method as a test, put it into
groups, say which methods it covers, and feed it from a data provider. Only the first data
provider counts; the others are kept apart.
-/

namespace TagLift

/-- The families of tags that can be turned into attributes. -/
inductive DirectiveKind where
  | test
  | group
  | covers
  | dataProvider
deriving DecidableEq, Repr

/-- A reference to a method of a class, both as written. -/
structure CoversRef where
  className : Text
  method : Text
deriving DecidableEq, Repr

namespace CoversRef

/-- The reference as `Class::method`. -/
def render (ref : CoversRef) : Text :=
  ref.className ++ "::".toList ++ ref.method

/-- The reference that an occurrence of a `@covers` tag names. -/
def ofOccurrence (found : Occurrence) : CoversRef :=
  ⟨found.parts.getD 0 [], found.parts.getD 1 []⟩

end CoversRef

/-- All that the tags of one doc comment ask for, in order of appearance. -/
structure Directives where
  test : Bool
  groups : List Text
  covers : List CoversRef
  dataProviders : List Text
deriving DecidableEq, Repr

namespace Directives

/-- The data provider that counts. -/
def dataProvider? (directives : Directives) : Option Text :=
  directives.dataProviders.head?

/-- The data providers that do not count. -/
def ignoredDataProviders (directives : Directives) : List Text :=
  directives.dataProviders.tail

def isEmpty (directives : Directives) : Bool :=
  !directives.test && directives.groups.isEmpty && directives.covers.isEmpty &&
    directives.dataProviders.isEmpty

/-- The first part of each occurrence in the lines. -/
def values (form : Form) (lines : List Text) : List Text :=
  lines.flatMap fun line => (form.findAll line).map fun found => found.parts.getD 0 []

/-- The directives of a doc comment, read line by line. -/
def ofDoc (doc : Text) : Directives :=
  let lines := Text.lines doc
  { test := lines.any Tag.test.occursIn
    groups := values Tag.group lines
    covers := lines.flatMap fun line => (Tag.covers.findAll line).map CoversRef.ofOccurrence
    dataProviders := values Tag.dataProvider lines }

end Directives

end TagLift
