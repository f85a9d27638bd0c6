import TagLift.Text.Basic

/-!
# Edits

An edit replaces a span of a source by a text. An insertion is an edit of an empty span and a
deletion one with an empty replacement.
-/

namespace TagLift

/-- Replace the bytes `start` to `stop` of a source by `text`. -/
structure Edit where
  start : Nat
  stop : Nat
  text : Text
deriving DecidableEq, Repr

/-- Why a source cannot be edited. -/
inductive EditError where
  /-- Two edits cover a common byte. -/
  | overlapping (first second : Span)
  /-- An edit is reversed, ends after the source or cuts a character. -/
  | outOfBounds (span : Span) (sourceSize : Nat)
deriving DecidableEq, Repr

def EditError.message : EditError → String
  | .overlapping first second =>
      "overlapping edits at " ++ toString first.start ++ ".." ++ toString first.stop ++
        " and " ++ toString second.start ++ ".." ++ toString second.stop
  | .outOfBounds span sourceSize =>
      "edit " ++ toString span.start ++ ".." ++ toString span.stop ++
        " is not a valid range of a " ++ toString sourceSize ++ " byte source"

namespace Edit

/-- Insert a text in front of the byte at `position`. -/
def insert (position : Nat) (text : Text) : Edit :=
  ⟨position, position, text⟩

/-- Remove the bytes `start` to `stop`. -/
def delete (start stop : Nat) : Edit :=
  ⟨start, stop, []⟩

def span (edit : Edit) : Span :=
  ⟨edit.start, edit.stop⟩

/-- Whether two edits cover a common byte. -/
def overlaps (left right : Edit) : Bool :=
  left.start < right.stop && right.start < left.stop

/-- Whether an edit is in range and cuts no character of the source. -/
def inBounds (source : Text) (edit : Edit) : Bool :=
  edit.start ≤ edit.stop && edit.stop ≤ source.byteSize &&
    Text.isBoundary edit.start source && Text.isBoundary edit.stop source

/-- The order in which edits are applied: by start, then by stop. -/
def precedes (left right : Edit) : Bool :=
  left.start < right.start || (left.start == right.start && left.stop ≤ right.stop)

end Edit

end TagLift
