import TagLift.Text.Basic

/-!
# Cutting at boundaries

At a boundary a text falls into two texts, the first of exactly that many bytes, and cutting there
gives them back. Everything about slices between boundaries follows from that.
-/

namespace TagLift

namespace Text

/-- A front part of a given size is what is taken. -/
theorem takeBytes_add_append (left right : Text) (n : Nat) :
    takeBytes (left.byteSize + n) (left ++ right) = left ++ takeBytes n right := by
  induction left with
  | nil => simp
  | cons c left ih =>
      have fits : c.utf8Size ≤ c.utf8Size + byteSize left + n := by omega
      have rest : c.utf8Size + byteSize left + n - c.utf8Size = byteSize left + n := by omega
      simp only [List.cons_append, byteSize_cons, takeBytes, if_pos fits, rest, ih]

theorem dropBytes_add_append (left right : Text) (n : Nat) :
    dropBytes (left.byteSize + n) (left ++ right) = dropBytes n right := by
  induction left with
  | nil => simp
  | cons c left ih =>
      have fits : c.utf8Size ≤ c.utf8Size + byteSize left + n := by omega
      have rest : c.utf8Size + byteSize left + n - c.utf8Size = byteSize left + n := by omega
      simp only [List.cons_append, byteSize_cons, dropBytes, if_pos fits, rest, ih]

@[simp] theorem takeBytes_zero (text : Text) : takeBytes 0 text = [] := by
  cases text with
  | nil => rfl
  | cons c rest => simp [takeBytes, Nat.ne_of_gt c.utf8Size_pos]

@[simp] theorem dropBytes_zero (text : Text) : dropBytes 0 text = text := by
  cases text with
  | nil => rfl
  | cons c rest => simp [dropBytes, Nat.ne_of_gt c.utf8Size_pos]

theorem takeBytes_append (left right : Text) :
    takeBytes left.byteSize (left ++ right) = left := by
  simpa using takeBytes_add_append left right 0

theorem dropBytes_append (left right : Text) :
    dropBytes left.byteSize (left ++ right) = right := by
  simpa using dropBytes_add_append left right 0

/-! ## Boundaries -/

@[simp] theorem isBoundary_zero (text : Text) : isBoundary 0 text := by
  simp [isBoundary]

theorem isBoundary_cons {n : Nat} {c : Char} {rest : Text} :
    isBoundary n (c :: rest) ↔ n = 0 ∨ c.utf8Size ≤ n ∧ isBoundary (n - c.utf8Size) rest := by
  cases n with
  | zero => simp
  | succ n => simp [isBoundary]

/-- A boundary is the size of a front part. -/
theorem isBoundary_iff {n : Nat} {text : Text} :
    isBoundary n text ↔ ∃ left right, text = left ++ right ∧ left.byteSize = n := by
  induction text generalizing n with
  | nil =>
      cases n with
      | zero => simp
      | succ n => simp [isBoundary]
  | cons c rest ih =>
      rw [isBoundary_cons, ih]
      constructor
      · rintro (rfl | ⟨fits, left, right, rfl, size⟩)
        · exact ⟨[], c :: rest, rfl, rfl⟩
        · exact ⟨c :: left, right, rfl, by simp [size]; omega⟩
      · rintro ⟨left, right, equal, size⟩
        cases left with
        | nil => exact .inl size.symm
        | cons first left =>
            obtain ⟨rfl, rfl⟩ := List.cons.inj equal
            rw [byteSize_cons] at size
            exact .inr ⟨by omega, left, right, rfl, by omega⟩

theorem isBoundary_byteSize (text : Text) : isBoundary text.byteSize text :=
  isBoundary_iff.2 ⟨text, [], by simp, rfl⟩

theorem isBoundary_append (left right : Text) : isBoundary left.byteSize (left ++ right) :=
  isBoundary_iff.2 ⟨left, right, rfl, rfl⟩

/-- Behind a front part, boundaries are those of the rest. -/
theorem isBoundary_add_append {left right : Text} {n : Nat} :
    isBoundary (left.byteSize + n) (left ++ right) ↔ isBoundary n right := by
  induction left with
  | nil => simp
  | cons c left ih =>
      rw [List.cons_append, isBoundary_cons, ← ih, byteSize_cons]
      have positive := c.utf8Size_pos
      have rest : c.utf8Size + byteSize left + n - c.utf8Size = byteSize left + n := by omega
      rw [rest]
      constructor
      · rintro (zero | ⟨-, boundary⟩)
        · omega
        · exact boundary
      · exact fun boundary => .inr ⟨by omega, boundary⟩

/-- What is taken behind an offset is part of a longer front part. -/
theorem takeBytes_dropBytes_sublist {text : Text} {m n k : Nat} (fits : m + n ≤ k) :
    (takeBytes n (dropBytes m text)).Sublist (takeBytes k text) := by
  induction text generalizing m n k with
  | nil => exact List.nil_sublist _
  | cons c rest ih =>
      by_cases dropped : c.utf8Size ≤ m
      · have taken : c.utf8Size ≤ k := by omega
        simp only [dropBytes, takeBytes, if_pos dropped, if_pos taken]
        exact (ih (by omega)).cons c
      · rw [dropBytes, if_neg dropped]
        by_cases taken : c.utf8Size ≤ n
        · have taken' : c.utf8Size ≤ k := by omega
          have shorter : (takeBytes (n - c.utf8Size) (dropBytes 0 rest)).Sublist
              (takeBytes (k - c.utf8Size) rest) := ih (by omega)
          rw [dropBytes_zero] at shorter
          simp only [takeBytes, if_pos taken, if_pos taken']
          exact shorter.cons_cons c
        · rw [takeBytes, if_neg taken]
          exact List.nil_sublist _

section Cut

variable {text : Text} {a b c : Nat}

theorem le_byteSize_of_isBoundary (boundary : isBoundary a text) : a ≤ text.byteSize := by
  obtain ⟨left, right, rfl, rfl⟩ := isBoundary_iff.1 boundary
  simp

theorem byteSize_takeBytes (boundary : isBoundary a text) : (takeBytes a text).byteSize = a := by
  obtain ⟨left, right, rfl, rfl⟩ := isBoundary_iff.1 boundary
  rw [takeBytes_append]

theorem byteSize_dropBytes (boundary : isBoundary a text) :
    a + (dropBytes a text).byteSize = text.byteSize := by
  obtain ⟨left, right, rfl, rfl⟩ := isBoundary_iff.1 boundary
  rw [dropBytes_append, byteSize_append]

theorem takeBytes_add (boundary : isBoundary a text) (n : Nat) :
    takeBytes (a + n) text = takeBytes a text ++ takeBytes n (dropBytes a text) := by
  obtain ⟨left, right, rfl, rfl⟩ := isBoundary_iff.1 boundary
  rw [takeBytes_add_append, takeBytes_append, dropBytes_append]

theorem dropBytes_dropBytes (boundary : isBoundary a text) (n : Nat) :
    dropBytes n (dropBytes a text) = dropBytes (a + n) text := by
  obtain ⟨left, right, rfl, rfl⟩ := isBoundary_iff.1 boundary
  rw [dropBytes_append, dropBytes_add_append]

theorem isBoundary_dropBytes (boundary : isBoundary a text) (n : Nat) :
    isBoundary n (dropBytes a text) ↔ isBoundary (a + n) text := by
  obtain ⟨left, right, rfl, rfl⟩ := isBoundary_iff.1 boundary
  rw [dropBytes_append, isBoundary_add_append]

/-! ## Slices -/

@[simp] theorem slice_self (a : Nat) (text : Text) : slice a a text = [] := by
  simp [slice]

/-- The middle of three texts. -/
theorem slice_append (left middle right : Text) :
    slice left.byteSize (left.byteSize + middle.byteSize) (left ++ middle ++ right) = middle := by
  rw [slice, List.append_assoc, dropBytes_append, Nat.add_sub_cancel_left, takeBytes_append]

theorem slice_append_dropBytes (first : isBoundary a text) (order : a ≤ b) :
    slice a b text ++ dropBytes b text = dropBytes a text := by
  have split : a + (b - a) = b := by omega
  rw [slice, ← split, ← dropBytes_dropBytes first, split, takeBytes_append_dropBytes]

theorem takeBytes_append_slice (first : isBoundary a text) (order : a ≤ b) :
    takeBytes a text ++ slice a b text = takeBytes b text := by
  rw [slice, ← takeBytes_add first, Nat.add_sub_cancel' order]

theorem slice_append_slice (first : isBoundary a text) (second : isBoundary b text)
    (order : a ≤ b) (order' : b ≤ c) :
    slice a b text ++ slice b c text = slice a c text := by
  have boundary : isBoundary (b - a) (dropBytes a text) := by
    rw [isBoundary_dropBytes first, show a + (b - a) = b by omega]
    exact second
  have split : dropBytes b text = dropBytes (b - a) (dropBytes a text) := by
    rw [dropBytes_dropBytes first, show a + (b - a) = b by omega]
  rw [slice, slice, slice, split, ← takeBytes_add boundary, show b - a + (c - b) = c - a by omega]

/-- A slice inside of one that starts at a boundary is part of it. -/
theorem slice_sublist_slice {d : Nat} (first : isBoundary a text) (starts : a ≤ b) (order : b ≤ c)
    (stops : c ≤ d) : (slice b c text).Sublist (slice a d text) := by
  have behind : dropBytes b text = dropBytes (b - a) (dropBytes a text) := by
    rw [dropBytes_dropBytes first, Nat.add_sub_cancel' starts]
  rw [slice, slice, behind]
  exact takeBytes_dropBytes_sublist (by omega)

theorem byteSize_slice (first : isBoundary a text) (second : isBoundary b text) (order : a ≤ b) :
    (slice a b text).byteSize = b - a := by
  apply byteSize_takeBytes
  rw [isBoundary_dropBytes first, show a + (b - a) = b by omega]
  exact second

theorem takeBytes_slice (first : isBoundary a text) (second : isBoundary b text) (order : a ≤ b)
    (order' : b ≤ c) : takeBytes (b - a) (slice a c text) = slice a b text := by
  rw [← slice_append_slice first second order order', ← byteSize_slice first second order,
    takeBytes_append]

theorem dropBytes_slice (first : isBoundary a text) (second : isBoundary b text) (order : a ≤ b)
    (order' : b ≤ c) : dropBytes (b - a) (slice a c text) = slice b c text := by
  rw [← slice_append_slice first second order order', ← byteSize_slice first second order,
    dropBytes_append]

end Cut

end Text

end TagLift
