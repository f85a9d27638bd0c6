import TagLift.Edit.Basic

/-!
# Applying edits

The edits of a list all speak of offsets of one source. They are put in order of their spans,
edits of equal spans keeping the order of the list, and applied in one forward sweep. The list is
refused when an edit is out of bounds or two edits overlap.
-/

namespace TagLift

namespace Edit

/-- The edits in order of application. -/
def ordered (edits : List Edit) : List Edit :=
  edits.mergeSort precedes

/-- The first pair of neighbours of an ordered list where the second starts before the first
ends. -/
def firstConflict? : List Edit → Option (Edit × Edit)
  | first :: second :: rest =>
      if first.overlaps second || second.start < first.stop then some (first, second)
      else firstConflict? (second :: rest)
  | _ => none

/-- Accept a list of edits, or name the first edit out of bounds, or else the first conflict. -/
def validate (source : Text) (edits : List Edit) : Except EditError Unit :=
  match edits.find? (fun edit => !edit.inBounds source) with
  | some edit => .error (.outOfBounds edit.span source.byteSize)
  | none =>
      match firstConflict? (ordered edits) with
      | some (first, second) => .error (.overlapping first.span second.span)
      | none => .ok ()

/-- Apply ordered edits to the rest of a source that starts at byte `offset`. -/
def sweep (offset : Nat) (rest : Text) : List Edit → Text
  | [] => rest
  | edit :: edits =>
      Text.takeBytes (edit.start - offset) rest ++ edit.text ++
        sweep edit.stop (Text.dropBytes (edit.stop - offset) rest) edits

/-- The source with every edit applied. -/
def apply (source : Text) (edits : List Edit) : Except EditError Text := do
  validate source edits
  return sweep 0 source (ordered edits)

/-- Where an offset lands after one edit in front of it, unless the edit removes more than
there is. -/
def shift? (offset : Nat) (edit : Edit) : Option Nat :=
  if edit.start ≤ edit.stop ∧ edit.stop - edit.start ≤ offset + edit.text.byteSize then
    some (offset + edit.text.byteSize - (edit.stop - edit.start))
  else
    none

/-- Where a byte of the source lands in the edited text. Every edit that ends at or before the
byte counts, an insertion at the byte included. -/
def mapOffset? (edits : List Edit) (position : Nat) : Option Nat :=
  (edits.filter (·.stop ≤ position)).foldlM shift? position

end Edit

end TagLift
