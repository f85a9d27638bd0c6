import TagLift.Text.Template

/-!
# Line ends and normal layout

A line ends in a line feed, with or without a carriage return in front. A file that holds one
such pair is taken to use it throughout.

An edited text is brought into a normal layout in three passes: three or more line ends in a row
become two, an import is set apart from an attribute or doc comment on the next line, and a doc
comment does not end in an empty line. Protected spans are copied as they are and the passes see
only the texts between them. A protected span that cuts a character of the text cannot be kept.
-/

namespace TagLift

/-- The line end that a source uses. -/
def newlineOf (source : Text) : Text :=
  if Text.hasPart ['\r', '\n'] source then ['\r', '\n'] else ['\n']

/-- Read one line end from the front of a text. -/
def lineEnd? : Text → Option Text
  | '\r' :: '\n' :: _ => some ['\r', '\n']
  | '\n' :: _ => some ['\n']
  | _ => none

/-- The run of line ends at the front of a text. -/
def lineEnds : Text → List Text
  | '\r' :: '\n' :: rest => ['\r', '\n'] :: lineEnds rest
  | '\n' :: rest => ['\n'] :: lineEnds rest
  | _ => []

/-- The spaces and tabs at the start of the line that holds a byte offset, up to the offset. -/
def lineIndent (source : Text) (position : Nat) : Text :=
  (Text.takeBytes position source).lastLine.takeWhile fun c => c == ' ' || c == '\t'

namespace Layout

/-- Three or more line ends in a row. -/
def blankRun : Form := fun text =>
  let ends := lineEnds text
  if 3 ≤ ends.length then some ⟨ends.flatten, []⟩ else none

/-- What an attribute group or a doc comment starts with. -/
def declarationStart? (text : Text) : Option Text :=
  ["#[".toList, "/**".toList].find? (·.isPrefixOf text)

/-- A line that starts with `use` and ends in a semicolon, with an attribute or a doc comment
at the start of the next line. -/
def useThenDeclaration : Form := fun text => do
  let before ← lineEnd? text
  let rest ← "use".toList.isPrefixOf? (text.drop before.length)
  let names := rest.takeWhile (· != ';')
  if names.isEmpty then none
  let afterUse ← [';'].isPrefixOf? (rest.dropWhile (· != ';'))
  let between ← lineEnd? afterUse
  let start ← declarationStart? (afterUse.drop between.length)
  let useLine := before ++ "use".toList ++ names ++ [';']
  return ⟨useLine ++ between ++ start, [useLine, start]⟩

/-- A star, white space and the end of a doc comment. -/
def emptyDocEnd : Form := fun text => do
  let rest ← " *".toList.isPrefixOf? text
  let gap := rest.takeWhile isBlank
  if gap.isEmpty || !"*/".toList.isPrefixOf (rest.dropWhile isBlank) then none
  else some ⟨" *".toList ++ gap ++ "*/".toList, []⟩

/-- Leave at most one blank line between two lines. The line end is read as a template. -/
def collapseBlankLines (newline text : Text) : Text :=
  blankRun.replaceAll (Template.expand (newline ++ newline)) text

/-- Put a blank line between an import and an attribute or doc comment right after it. The line
end is read as a template. -/
def separateImports (newline text : Text) : Text :=
  useThenDeclaration.replaceAll
    (Template.expand ("${1}".toList ++ newline ++ newline ++ "${2}".toList)) text

/-- Drop the empty line at the end of a doc comment. -/
def tidyDocEnd (text : Text) : Text :=
  emptyDocEnd.replaceAll (fun _ => " */".toList) text

/-- All three passes over a text without protected spans. -/
def normalizeSegment (newline text : Text) : Text :=
  tidyDocEnd (separateImports newline (collapseBlankLines newline text))

/-- A protected span as far as it lies in the bytes `offset` to `size`. -/
def clip (offset size : Nat) (span : Span) : Span :=
  let start := min (max span.start offset) size
  ⟨start, min (max span.stop start) size⟩

/-- Normalize the rest of a text that starts at byte `offset`, unless a protected span cuts a
character of it. -/
def normalizeFrom? (newline : Text) (offset : Nat) (rest : Text) : List Span → Option Text
  | [] => some (normalizeSegment newline rest)
  | span :: spans =>
      let kept := clip offset (offset + rest.byteSize) span
      let fromStart := Text.dropBytes (kept.start - offset) rest
      if Text.isBoundary (kept.start - offset) rest &&
          Text.isBoundary (kept.stop - kept.start) fromStart then
        (normalizeFrom? newline kept.stop (Text.dropBytes (kept.stop - kept.start) fromStart)
          spans).map fun later =>
            normalizeSegment newline (Text.takeBytes (kept.start - offset) rest) ++
              Text.takeBytes (kept.stop - kept.start) fromStart ++ later
      else none

/-- Normalize a text outside the protected spans, which are given in order. -/
def normalize? (newline : Text) (protectedSpans : List Span) (text : Text) : Option Text :=
  normalizeFrom? newline 0 text protectedSpans

end Layout

end TagLift
