import TagLift.Doc.Directive

/-!
# Stripping directive lines

Once a directive has become an attribute its line leaves the doc comment. Only the lines between
the first and the last one are looked at. The lines that stay and are not empty split the rest
into gaps of removed and empty lines. A gap without a removed line stays as it is. Of a gap with
one, the empty lines go, but for the first where the gap lies between two lines of text.
-/

namespace TagLift

/-- Whether a line holds nothing but a directive of this kind. A `@covers` line documents its
method and is never taken for one. -/
def DirectiveKind.isLineOf (kind : DirectiveKind) (line : Text) : Bool :=
  match kind with
  | .test => DocLine.isTestLine line
  | .group => DocLine.isGroupLine line
  | .dataProvider => DocLine.isDataProviderLine line
  | .covers => false

namespace DocLine

/-- Whether a line goes because it holds a directive of one of the kinds. -/
def isDirectiveLine (kinds : List DirectiveKind) (line : Text) : Bool :=
  kinds.any (·.isLineOf line)

/-- The empty lines of a gap that stay. -/
def settleGap (kinds : List DirectiveKind) (atEdge : Bool) (gap : List Text) : List Text :=
  if gap.any (isDirectiveLine kinds) then
    if atEdge then [] else (gap.filter (!isDirectiveLine kinds ·)).take 1
  else gap

/-- The inner lines that stay. The gap holds the removed and empty lines read since the last
line of text, and `atStart` says whether there was none yet. -/
def settle (kinds : List DirectiveKind) (atStart : Bool) (gap : List Text) :
    List Text → List Text
  | [] => settleGap kinds true gap
  | line :: rest =>
      if isDirectiveLine kinds line || isEmptyLine line then
        settle kinds atStart (gap ++ [line]) rest
      else
        settleGap kinds atStart gap ++ line :: settle kinds false [] rest

/-- The lines of a doc comment without the directive lines of the kinds. -/
def stripLines (kinds : List DirectiveKind) : List Text → List Text
  | [] => []
  | [line] => [line]
  | first :: second :: rest =>
      first :: settle kinds true [] (second :: rest).dropLast ++ [(second :: rest).getLastD []]

end DocLine

/-- A doc comment without the directive lines of the kinds. -/
def stripDirectives (kinds : List DirectiveKind) (doc : Text) : Text :=
  Text.joinLines (DocLine.stripLines kinds (Text.splitLines doc))

end TagLift
