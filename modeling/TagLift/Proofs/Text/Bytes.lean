import TagLift.Proofs.Text.Offset

/-!
# Texts and their bytes

The UTF-8 form of a text has as many bytes as the text counts, and cutting a text at boundaries
cuts its bytes at the same offsets. Bytes can be cut anywhere, so ranges that begin or end inside a
character are ranges of bytes.
-/

namespace TagLift

namespace Bytes

/-- The bytes from `start` up to but not including `stop`. -/
def slice (start stop : Nat) (bytes : Bytes) : Bytes :=
  (bytes.drop start).take (stop - start)

theorem length_slice {bytes : Bytes} {start stop : Nat} (inside : stop ≤ bytes.length) :
    (slice start stop bytes).length = stop - start := by
  rw [slice, List.length_take, List.length_drop]
  omega

theorem slice_append_slice (bytes : Bytes) {a b c : Nat} (first : a ≤ b) (second : b ≤ c) :
    slice a b bytes ++ slice b c bytes = slice a c bytes := by
  have behind : bytes.drop b = (bytes.drop a).drop (b - a) := by
    rw [List.drop_drop, Nat.add_sub_cancel' first]
  rw [slice, slice, slice, behind, ← List.take_add, show b - a + (c - b) = c - a by omega]

/-- The middle of three stretches of bytes. -/
theorem slice_append (left middle right : Bytes) :
    slice left.length (left.length + middle.length) (left ++ middle ++ right) = middle := by
  rw [slice, List.append_assoc, List.drop_left, Nat.add_sub_cancel_left, List.take_left]

end Bytes

namespace Text

@[simp] theorem toBytes_append (left right : Text) :
    toBytes (left ++ right) = toBytes left ++ toBytes right :=
  List.flatMap_append

@[simp] theorem length_toBytes (text : Text) : text.toBytes.length = text.byteSize := by
  induction text with
  | nil => rfl
  | cons c rest ih =>
      rw [toBytes, List.flatMap_cons, List.length_append, String.length_utf8EncodeChar, byteSize,
        ← ih]
      rfl

/-- Between boundaries the bytes of a slice are the slice of the bytes. -/
theorem toBytes_slice {text : Text} {start stop : Nat} (first : isBoundary start text)
    (second : isBoundary stop text) (order : start ≤ stop) :
    (slice start stop text).toBytes = text.toBytes.slice start stop := by
  have whole : text = takeBytes start text ++ slice start stop text ++ dropBytes stop text := by
    rw [takeBytes_append_slice first order, takeBytes_append_dropBytes]
  have front : (takeBytes start text).toBytes.length = start := by
    rw [length_toBytes, byteSize_takeBytes first]
  have middle : (slice start stop text).toBytes.length = stop - start := by
    rw [length_toBytes, byteSize_slice first second order]
  have cut := Bytes.slice_append (takeBytes start text).toBytes (slice start stop text).toBytes
    (dropBytes stop text).toBytes
  rw [← toBytes_append, ← toBytes_append, ← whole, front, middle, Nat.add_sub_cancel' order] at cut
  exact cut.symm

end Text

end TagLift
