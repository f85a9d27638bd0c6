import TagLift.Doc.Directive
import TagLift.Proofs.Text.Bare
import Mathlib.Data.List.Basic
import Mathlib.Data.List.TakeWhile

/-!
# What a directive line holds

A line form and a tag form read the same line in two ways: the one takes the whole line apart, the
other searches it from left to right, and without the carriage return at its end. In front of the
only tag of a directive line there is no at sign, so the search reads that tag first and with the
same value. No reference to a covered method can be found in such a line.
-/

namespace TagLift

/-! ## Searching for a form -/

namespace Form

/-- No occurrence starts with another character. -/
def StartsWith (form : Form) (first : Char) : Prop :=
  ∀ (c : Char) (rest : Text), c ≠ first → form (c :: rest) = none

variable {form : Form} {first : Char}

/-- The search goes past a text that holds no first character of the form. -/
theorem StartsWith.findAll_append (starts : form.StartsWith first) {front : Text}
    (absent : first ∉ front) (rest : Text) : form.findAll (front ++ rest) = form.findAll rest := by
  induction front with
  | nil => rfl
  | cons c front ih =>
      have other : c ≠ first := fun equal => absent (by simp [equal])
      have later : first ∉ front := fun member => absent (by simp [member])
      rw [← ih later]
      simp only [findAll, List.cons_append, findFrom, starts c _ other]

theorem StartsWith.findAll_eq_nil (starts : form.StartsWith first) {text : Text}
    (absent : first ∉ text) : form.findAll text = [] := by
  rw [← List.append_nil text, starts.findAll_append absent]
  rfl

/-- A form that reads an at sign first and white space later on, with more behind it. -/
structure ValueTag (form : Form) : Prop where
  starts : form.StartsWith '@'
  needs : ∀ {word trail : Text}, (∀ c ∈ word, isBlank c = false) → trail.isAllBlank →
    form (word ++ trail) = none

/-- What is read from the front of a text is found first. -/
theorem exists_findAll_eq_cons {text : Text} {found : Occurrence} (nonempty : text ≠ [])
    (read : form text = some found) : ∃ later, form.findAll text = found :: later := by
  obtain ⟨c, rest, rfl⟩ := List.exists_cons_of_ne_nil nonempty
  refine ⟨form.findFrom (found.whole.length - 1) rest, ?_⟩
  simp only [findAll, findFrom, read]

end Form

/-! ## Tags -/

/-- The code points of white space. -/
def blankCodes : List Nat :=
  [9, 10, 11, 12, 13, 0x20, 0x85, 0xA0, 0x1680, 0x2000, 0x2001, 0x2002, 0x2003, 0x2004, 0x2005,
   0x2006, 0x2007, 0x2008, 0x2009, 0x200A, 0x2028, 0x2029, 0x202F, 0x205F, 0x3000]

theorem mem_blankCodes {c : Char} (blank : isBlank c) : c.toNat ∈ blankCodes := by
  simp only [isBlank, Bool.or_eq_true, Bool.and_eq_true, decide_eq_true_eq, beq_iff_eq] at blank
  simp only [blankCodes, List.mem_cons, List.not_mem_nil, or_false]
  omega

/-- A character of a word is not white space. -/
theorem isBlank_of_isWordChar {c : Char} (word : isWordChar c) : isBlank c = false := by
  have apart : ∀ code ∈ blankCodes, isWordChar (Char.ofNat code) = false := by decide +kernel
  by_contra blank
  have outside := apart c.toNat (mem_blankCodes (by simpa using blank))
  rw [Char.ofNat_toNat, word] at outside
  cases outside

theorem Tag.isBlank_of_isGroupChar {c : Char} (inside : isGroupChar c) : isBlank c = false := by
  simp only [isGroupChar, Bool.and_eq_true, Bool.not_eq_true'] at inside
  exact inside.1

namespace Text

theorem at_notMem_of_isAllBlank {text : Text} (blank : text.isAllBlank) : '@' ∉ text := by
  intro member
  exact absurd (List.all_eq_true.1 blank '@' member) (by decide)

/-- A text of white space does not start with a character that is none. -/
theorem head?_any_of_isAllBlank {p : Char → Bool} (solid : ∀ c, p c → isBlank c = false)
    {text : Text} (blank : text.isAllBlank) : text.head?.any p = false := by
  cases text with
  | nil => rfl
  | cons c text =>
      have here := List.all_eq_true.1 blank c (by simp)
      by_contra inside
      simp [solid c (by simpa using inside)] at here

end Text

namespace Form.ValueTag

variable {form : Form} (valueTag : form.ValueTag)

include valueTag

/-- Nothing is found where only white space follows the first word. -/
theorem findAll_eq_nil {word trail : Text} (solid : ∀ c ∈ word, isBlank c = false)
    (trails : trail.isAllBlank) : form.findAll (word ++ trail) = [] := by
  induction word with
  | nil => exact valueTag.starts.findAll_eq_nil (Text.at_notMem_of_isAllBlank trails)
  | cons c word ih =>
      have here := valueTag.needs solid trails
      rw [List.cons_append] at here ⊢
      simp only [findAll, findFrom, here]
      exact ih fun other member => solid other (by simp [member])

/-- The search goes past a tag of another name. -/
theorem findAll_append {name rest : Text} (other : form ('@' :: name ++ rest) = none)
    (absent : '@' ∉ name) : form.findAll ('@' :: name ++ rest) = form.findAll rest := by
  rw [List.cons_append] at other ⊢
  rw [← valueTag.starts.findAll_append absent rest]
  simp only [findAll, findFrom, other]

end Form.ValueTag

namespace Tag

theorem valued_startsWith (name : Text) (inValue : Char → Bool) :
    (valued ('@' :: name) inValue).StartsWith '@' := by
  intro c rest other
  simp [valued, List.isPrefixOf?, other.symm]

theorem test_startsWith : test.StartsWith '@' := by
  intro c rest other
  simp [test, List.isPrefixOf?, other.symm]

theorem covers_startsWith : covers.StartsWith '@' := by
  intro c rest other
  simp [covers, List.isPrefixOf?, other.symm]

/-- A tag with a value, which white space follows if anything does. -/
theorem valued_append (head : Text) {space value trail : Text} {inValue : Char → Bool}
    (solid : ∀ c, inValue c → isBlank c = false) (apart : space ≠ []) (blank : space.isAllBlank)
    (nonempty : value ≠ []) (inside : value.all inValue) (trails : trail.isAllBlank) :
    valued head inValue (head ++ space ++ value ++ trail) =
      some ⟨head ++ space ++ value, [value]⟩ := by
  obtain ⟨first, others, rfl⟩ := List.exists_cons_of_ne_nil nonempty
  have read : head.isPrefixOf? (head ++ space ++ (first :: others) ++ trail) =
      some (space ++ (first :: others ++ trail)) :=
    List.isPrefixOf?_eq_some_iff_append_eq.2 (by simp)
  have firstSolid : isBlank first = false := solid first (List.all_eq_true.1 inside first (by simp))
  have ends : trail.takeWhile inValue = [] := by
    have outside := Text.head?_any_of_isAllBlank solid trails
    cases trail with
    | nil => rfl
    | cons c trail => simpa using outside
  have gapRead : (space ++ (first :: others ++ trail)).takeWhile isBlank = space := by
    rw [List.takeWhile_append_of_pos (List.all_eq_true.1 blank)]
    simp [firstSolid]
  have afterGap : (space ++ (first :: others ++ trail)).dropWhile isBlank =
      first :: others ++ trail := by
    rw [List.dropWhile_append_of_pos (List.all_eq_true.1 blank)]
    simp [firstSolid]
  have valueRead : (first :: others ++ trail).takeWhile inValue = first :: others := by
    rw [List.takeWhile_append_of_pos (List.all_eq_true.1 inside), ends, List.append_nil]
  simp only [valued, read, Option.bind_eq_bind, Option.bind_some, gapRead, afterGap, valueRead]
  simp [apart]

/-- What a tag with a value is read from. -/
theorem exists_of_valued_eq_some {head text : Text} {inValue : Char → Bool} {found : Occurrence}
    (read : valued head inValue text = some found) :
    ∃ space value rest : Text, text = head ++ space ++ value ++ rest ∧
      found = ⟨head ++ space ++ value, [value]⟩ ∧ (space ≠ [] ∧ space.isAllBlank) ∧
      value ≠ [] ∧ value.all inValue := by
  simp only [valued, Option.bind_eq_bind, Option.bind_eq_some_iff,
    List.isPrefixOf?_eq_some_iff_append_eq] at read
  obtain ⟨rest, rfl, read⟩ := read
  split at read
  · cases read
  next nonempty =>
    simp only [Bool.or_eq_true, List.isEmpty_iff, not_or] at nonempty
    obtain rfl := Option.some.inj read
    refine ⟨rest.takeWhile isBlank, (rest.dropWhile isBlank).takeWhile inValue,
      (rest.dropWhile isBlank).dropWhile inValue, ?_, rfl, ⟨nonempty.1, List.all_takeWhile⟩,
      nonempty.2, List.all_takeWhile⟩
    simp only [List.append_assoc, List.takeWhile_append_dropWhile]

/-- A reference is read behind the name of its tag and white space. -/
theorem exists_of_covers_eq_some {text : Text} {found : Occurrence}
    (read : covers text = some found) :
    ∃ rest : Text, text = "@covers".toList ++ rest ∧ rest.takeWhile isBlank ≠ [] ∧
      rest.dropWhile isBlank ≠ [] := by
  simp only [covers, Option.bind_eq_bind, Option.bind_eq_some_iff,
    List.isPrefixOf?_eq_some_iff_append_eq] at read
  obtain ⟨rest, rfl, read⟩ := read
  split at read
  · simp at read
  next gap =>
    obtain ⟨className, named, -⟩ := Option.bind_eq_some_iff.1 read
    refine ⟨rest, rfl, by simpa using gap, ?_⟩
    intro nothing
    rw [nothing] at named
    cases named

theorem covers_valueTag : covers.ValueTag where
  starts := covers_startsWith
  needs := by
    intro word trail solid trails
    rw [Option.eq_none_iff_forall_ne_some]
    intro found read
    obtain ⟨rest, split, gap, behind⟩ := exists_of_covers_eq_some read
    have blank : ¬ rest.isAllBlank := fun blank =>
      behind (List.dropWhile_eq_nil_iff.2 (List.all_eq_true.1 blank))
    -- The name of the tag ends behind the word or in it.
    rcases List.append_eq_append_iff.1 split with ⟨ahead, -, rfl⟩ | ⟨inner, rfl, rfl⟩
    · rw [Text.isAllBlank_append, Bool.and_eq_true] at trails
      exact blank trails.2
    · cases inner with
      | nil => exact blank trails
      | cons c inner => simp [solid c (by simp)] at gap

theorem valued_valueTag (name : Text) {inValue : Char → Bool}
    (solid : ∀ c, inValue c → isBlank c = false) : (valued ('@' :: name) inValue).ValueTag where
  starts := valued_startsWith name inValue
  needs := by
    intro word trail wordSolid trails
    rw [Option.eq_none_iff_forall_ne_some]
    intro found read
    obtain ⟨space, value, rest, split, -, ⟨apart, blank⟩, nonempty, inside⟩ :=
      exists_of_valued_eq_some read
    obtain ⟨first, others, rfl⟩ := List.exists_cons_of_ne_nil nonempty
    obtain ⟨c, spaces, rfl⟩ := List.exists_cons_of_ne_nil apart
    have firstSolid := solid first (List.all_eq_true.1 inside first (by simp))
    have gapBlank := List.all_eq_true.1 blank c (by simp)
    -- The white space behind the name is not in the word, so the value is not in it either.
    rw [List.append_assoc, List.append_assoc] at split
    have behind : first ∈ trail := by
      rcases List.append_eq_append_iff.1 split with ⟨ahead, -, rfl⟩ | ⟨inner, rfl, tail⟩
      · simp
      · cases inner with
        | nil =>
            rw [List.nil_append] at tail
            simp [← tail]
        | cons d inner =>
            obtain ⟨rfl, -⟩ := List.cons_eq_cons.1 tail
            simp [wordSolid c (by simp)] at gapBlank
    have firstBlank := List.all_eq_true.1 trails first behind
    simp [firstSolid] at firstBlank

end Tag

/-! ## Lines -/

namespace DocLine

/-- A line of white space, a star, white space, the tag and white space. -/
inductive Holds (tag : Text) : Text → Prop where
  | intro {lead gap trail : Text} (leads : lead.isAllBlank) (apart : gap ≠ [])
      (gaps : gap.isAllBlank) (trails : trail.isAllBlank) :
      Holds tag (lead ++ '*' :: gap ++ tag ++ trail)

/-- A line that holds a tag with a value. -/
def HoldsValue (head : Text) (inValue : Char → Bool) (value line : Text) : Prop :=
  ∃ space : Text, (space ≠ [] ∧ space.isAllBlank) ∧ (value ≠ [] ∧ value.all inValue) ∧
    Holds (head ++ space ++ value) line

/-- A line of white space with a star in it. -/
inductive HoldsNothing : Text → Prop where
  | intro {lead trail : Text} (leads : lead.isAllBlank) (trails : trail.isAllBlank) :
      HoldsNothing (lead ++ '*' :: trail)

theorem exists_of_afterStar?_eq_some {line body : Text} (read : afterStar? line = some body) :
    ∃ lead : Text, lead.isAllBlank ∧ line = lead ++ '*' :: body := by
  refine ⟨line.takeWhile isBlank, List.all_takeWhile, ?_⟩
  rw [afterStar?, List.isPrefixOf?_eq_some_iff_append_eq] at read
  exact (List.takeWhile_append_dropWhile.symm).trans (by rw [← read]; rfl)

theorem holdsNothing_of_isEmptyLine {line : Text} (empty : isEmptyLine line) :
    HoldsNothing line := by
  rw [isEmptyLine, Option.any_eq_true] at empty
  obtain ⟨trail, read, trails⟩ := empty
  obtain ⟨lead, leads, rfl⟩ := exists_of_afterStar?_eq_some read
  exact .intro leads trails

theorem exists_of_afterStarGap?_eq_some {line body : Text}
    (read : afterStarGap? line = some body) :
    ∃ lead gap : Text, lead.isAllBlank ∧ gap ≠ [] ∧ gap.isAllBlank ∧
      line = lead ++ '*' :: gap ++ body := by
  rw [afterStarGap?, Option.bind_eq_bind, Option.bind_eq_some_iff] at read
  obtain ⟨rest, star, read⟩ := read
  obtain ⟨lead, leads, rfl⟩ := exists_of_afterStar?_eq_some star
  split at read
  next starts =>
    obtain rfl := Option.some.inj read
    refine ⟨lead, rest.takeWhile isBlank, leads, ?_, List.all_takeWhile, ?_⟩
    · obtain ⟨c, first, blank⟩ := (Option.any_eq_true _ _).1 starts
      obtain ⟨others, rfl⟩ := List.head?_eq_some_iff.1 first
      simp [blank]
    · simp [List.takeWhile_append_dropWhile]
  · cases read

theorem holds_of_isTestLine {line : Text} (test : isTestLine line) :
    Holds "@test".toList line := by
  rw [isTestLine, Option.any_eq_true] at test
  obtain ⟨trail, read, trails⟩ := test
  obtain ⟨body, behind, tagRead⟩ := Option.bind_eq_some_iff.1 read
  obtain ⟨lead, gap, leads, apart, gaps, rfl⟩ := exists_of_afterStarGap?_eq_some behind
  obtain rfl := List.isPrefixOf?_eq_some_iff_append_eq.1 tagRead
  rw [← List.append_assoc]
  exact .intro leads apart gaps trails

theorem exists_holdsValue_of_isValuedLine {head line : Text} {inValue : Char → Bool}
    (valued : isValuedLine head inValue line) :
    ∃ value, HoldsValue head inValue value line := by
  rw [isValuedLine, Option.any_eq_true] at valued
  obtain ⟨trail, read, trails⟩ := valued
  obtain ⟨body, behind, readBody⟩ := Option.bind_eq_some_iff.1 read
  obtain ⟨found, tagRead, rfl⟩ := Option.map_eq_some_iff.1 readBody
  obtain ⟨lead, gap, leads, apart, gaps, rfl⟩ := exists_of_afterStarGap?_eq_some behind
  obtain ⟨space, value, rest, rfl, rfl, spaces, inside⟩ := Tag.exists_of_valued_eq_some tagRead
  rw [List.drop_left] at trails
  refine ⟨value, space, spaces, inside, ?_⟩
  rw [← List.append_assoc]
  exact .intro leads apart gaps trails

/-! ## Recognising a line -/

theorem afterStar?_append {lead : Text} (leads : lead.isAllBlank) (rest : Text) :
    afterStar? (lead ++ '*' :: rest) = some rest := by
  rw [afterStar?, List.dropWhile_append_of_pos (List.all_eq_true.1 leads),
    List.dropWhile_cons_of_neg (by decide)]
  exact List.isPrefixOf?_eq_some_iff_append_eq.2 rfl

theorem afterStarGap?_append {lead gap : Text} (leads : lead.isAllBlank) (apart : gap ≠ [])
    (gaps : gap.isAllBlank) {c : Char} (solid : isBlank c = false) (rest : Text) :
    afterStarGap? (lead ++ '*' :: gap ++ c :: rest) = some (c :: rest) := by
  obtain ⟨first, others, rfl⟩ := List.exists_cons_of_ne_nil apart
  have firstBlank := List.all_eq_true.1 gaps first (by simp)
  have star : afterStar? (lead ++ '*' :: (first :: others) ++ c :: rest) =
      some (first :: others ++ c :: rest) := by
    rw [List.append_assoc]
    exact afterStar?_append leads _
  have behind : (first :: others ++ c :: rest).dropWhile isBlank = c :: rest := by
    rw [List.dropWhile_append_of_pos (List.all_eq_true.1 gaps),
      List.dropWhile_cons_of_neg (by simp [solid])]
  simp only [afterStarGap?, star, Option.bind_eq_bind, Option.bind_some, behind]
  simp [firstBlank]

theorem isEmptyLine_iff {line : Text} : isEmptyLine line ↔ HoldsNothing line := by
  refine ⟨holdsNothing_of_isEmptyLine, ?_⟩
  rintro ⟨leads, trails⟩
  rw [isEmptyLine, afterStar?_append leads]
  exact trails

theorem isTestLine_iff {line : Text} : isTestLine line ↔ Holds "@test".toList line := by
  refine ⟨holds_of_isTestLine, ?_⟩
  rintro @⟨lead, gap, trail, leads, apart, gaps, trails⟩
  have behind : afterStarGap? (lead ++ '*' :: gap ++ "@test".toList ++ trail) =
      some ("@test".toList ++ trail) := by
    rw [List.append_assoc]
    exact afterStarGap?_append leads apart gaps (by decide) _
  have read : "@test".toList.isPrefixOf? ("@test".toList ++ trail) = some trail :=
    List.isPrefixOf?_eq_some_iff_append_eq.2 rfl
  rw [isTestLine, behind, Option.bind_some, read]
  exact trails

/-- A line is recognised exactly if it holds the tag with some value. -/
theorem isValuedLine_iff (name : Text) {line : Text} {inValue : Char → Bool}
    (solid : ∀ c, inValue c → isBlank c = false) :
    isValuedLine ('@' :: name) inValue line ↔
      ∃ value, HoldsValue ('@' :: name) inValue value line := by
  refine ⟨exists_holdsValue_of_isValuedLine, ?_⟩
  rintro ⟨value, space, ⟨apart, blank⟩, ⟨nonempty, inside⟩, holds⟩
  cases holds with
  | @intro lead gap trail leads gapApart gaps trails =>
      have read := Tag.valued_append ('@' :: name) solid apart blank nonempty inside trails
      have behind : afterStarGap? (lead ++ '*' :: gap ++ ('@' :: name ++ space ++ value) ++ trail) =
          some ('@' :: name ++ space ++ value ++ trail) := by
        rw [List.append_assoc]
        exact afterStarGap?_append leads gapApart gaps (by decide) _
      rw [isValuedLine, behind, Option.bind_some, read, Option.map_some, List.drop_left]
      exact trails

/-! ## Searching a directive line -/

namespace Holds

variable {tag line : Text}

/-- In front of the tag no at sign stands, so the search begins with the tag. -/
theorem exists_findAll_eq {form : Form} (starts : form.StartsWith '@') (holds : Holds tag line) :
    ∃ trail : Text, trail.isAllBlank ∧ form.findAll line = form.findAll (tag ++ trail) := by
  cases holds with
  | @intro lead gap trail leads apart gaps trails =>
      have absent : '@' ∉ lead ++ '*' :: gap := by
        simp [Text.at_notMem_of_isAllBlank leads, Text.at_notMem_of_isAllBlank gaps]
      refine ⟨trail, trails, ?_⟩
      rw [List.append_assoc, starts.findAll_append absent]

/-- The carriage return at the end of a line is not part of its tag. -/
theorem dropReturn {last : Char} (holds : Holds tag line) (ends : tag.getLast? = some last)
    (solid : last ≠ '\r') : Holds tag (Text.dropReturn line) := by
  cases holds with
  | @intro lead gap trail leads apart gaps trails =>
      rw [Text.dropReturn]
      split
      next returns =>
        rcases trail.eq_nil_or_concat with rfl | ⟨before, c, rfl⟩
        · rw [List.append_nil, List.getLast?_append, ends, Option.some_or] at returns
          exact absurd (Option.some.inj returns) solid
        · rw [List.concat_eq_append] at trails ⊢
          rw [Text.isAllBlank_append, Bool.and_eq_true] at trails
          rw [← List.append_assoc, List.dropLast_concat]
          exact .intro leads apart gaps trails.1
      · exact .intro leads apart gaps trails

/-- The marker is found in its line. -/
theorem occursIn_test (holds : Holds "@test".toList line) : Tag.test.occursIn line := by
  obtain ⟨trail, trails, same⟩ := holds.exists_findAll_eq Tag.test_startsWith
  have ends := Text.head?_any_of_isAllBlank (fun _ => isBlank_of_isWordChar) trails
  have rest : "@test".toList.isPrefixOf? ("@test".toList ++ trail) = some trail :=
    List.isPrefixOf?_eq_some_iff_append_eq.2 rfl
  have read : Tag.test ("@test".toList ++ trail) = some ⟨"@test".toList, []⟩ := by
    simp only [Tag.test, rest, Option.bind_eq_bind, Option.bind_some, ends]
    rfl
  obtain ⟨later, found⟩ := Form.exists_findAll_eq_cons (by simp) read
  simp only [Form.occursIn, same, found]
  rfl

/-- The marker holds no white space. -/
theorem isBlank_of_mem_test {c : Char} (member : c ∈ "@test".toList) : isBlank c = false := by
  have solid : "@test".toList.all (!isBlank ·) := by decide
  simpa using List.all_eq_true.1 solid c member

/-- A tag with a value is not found where another tag without one is. -/
theorem findAll_eq_nil {form : Form} (valueTag : form.ValueTag)
    (solid : ∀ c ∈ tag, isBlank c = false) (holds : Holds tag line) : form.findAll line = [] := by
  obtain ⟨trail, trails, same⟩ := holds.exists_findAll_eq valueTag.starts
  rw [same, valueTag.findAll_eq_nil solid trails]

end Holds

theorem HoldsNothing.at_notMem {line : Text} (holds : HoldsNothing line) : '@' ∉ line := by
  cases holds with
  | intro leads trails =>
      simp [Text.at_notMem_of_isAllBlank leads, Text.at_notMem_of_isAllBlank trails]

namespace HoldsValue

variable {name value line : Text} {inValue : Char → Bool}
  (solid : ∀ c, inValue c → isBlank c = false)

include solid

/-- The carriage return at the end of a line is not part of the value. -/
theorem dropReturn {head : Text} (holds : HoldsValue head inValue value line) :
    HoldsValue head inValue value (Text.dropReturn line) := by
  obtain ⟨space, spaces, ⟨nonempty, inside⟩, holds⟩ := holds
  obtain ⟨last, ends⟩ := Option.ne_none_iff_exists'.1 (mt List.getLast?_eq_none_iff.1 nonempty)
  have lastSolid := solid last (List.all_eq_true.1 inside last (List.mem_of_getLast? ends))
  have tagEnds : (head ++ space ++ value).getLast? = some last := by
    rw [List.getLast?_append, ends, Option.some_or]
  refine ⟨space, spaces, ⟨nonempty, inside⟩, holds.dropReturn tagEnds ?_⟩
  rintro rfl
  exact absurd lastSolid (by decide)

/-- The tag and its value are found first in its line. -/
theorem exists_findAll_eq_cons (holds : HoldsValue ('@' :: name) inValue value line) :
    ∃ whole later, (Tag.valued ('@' :: name) inValue).findAll line = ⟨whole, [value]⟩ :: later := by
  obtain ⟨space, ⟨apart, blank⟩, ⟨nonempty, inside⟩, holds⟩ := holds
  obtain ⟨trail, trails, same⟩ := holds.exists_findAll_eq (Tag.valued_startsWith name inValue)
  have read := Tag.valued_append ('@' :: name) solid apart blank nonempty inside trails
  obtain ⟨later, found⟩ := Form.exists_findAll_eq_cons (by simp) read
  exact ⟨_, later, same.trans found⟩

/-- A tag of another name is not found in front of the value or in it. -/
theorem findAll_eq_nil {form : Form} (valueTag : form.ValueTag)
    (other : ∀ rest : Text, form ('@' :: name ++ rest) = none) (absent : '@' ∉ name)
    (holds : HoldsValue ('@' :: name) inValue value line) : form.findAll line = [] := by
  obtain ⟨space, ⟨apart, blank⟩, ⟨nonempty, inside⟩, holds⟩ := holds
  obtain ⟨trail, trails, same⟩ := holds.exists_findAll_eq valueTag.starts
  rw [same, List.append_assoc, List.append_assoc, valueTag.findAll_append (other _) absent,
    valueTag.starts.findAll_append (Text.at_notMem_of_isAllBlank blank)]
  exact valueTag.findAll_eq_nil (fun c member => solid c (List.all_eq_true.1 inside c member))
    trails

end HoldsValue

end DocLine

/-! ## The directives of a comment -/

theorem Text.dropReturn_mem_lines {text line : Text} (inner : line ∈ text.splitLines.dropLast) :
    dropReturn line ∈ lines text :=
  List.mem_append_left _ (List.mem_map_of_mem inner)

namespace Directives

variable {doc line : Text} (inner : line ∈ doc.splitLines.dropLast)

include inner

theorem test_ofDoc (holds : DocLine.Holds "@test".toList line) : (ofDoc doc).test :=
  List.any_eq_true.2 ⟨_, Text.dropReturn_mem_lines inner,
    (holds.dropReturn rfl (by decide)).occursIn_test⟩

theorem mem_values (name : Text) {value : Text} {inValue : Char → Bool}
    (solid : ∀ c, inValue c → isBlank c = false)
    (holds : DocLine.HoldsValue ('@' :: name) inValue value line) :
    value ∈ values (Tag.valued ('@' :: name) inValue) (Text.lines doc) := by
  obtain ⟨whole, later, found⟩ := (holds.dropReturn solid).exists_findAll_eq_cons solid
  refine List.mem_flatMap.2 ⟨_, Text.dropReturn_mem_lines inner, ?_⟩
  simp [found]

theorem mem_groups_ofDoc {value : Text}
    (holds : DocLine.HoldsValue "@group".toList Tag.isGroupChar value line) :
    value ∈ (ofDoc doc).groups :=
  mem_values inner "group".toList (fun _ => Tag.isBlank_of_isGroupChar) holds

theorem mem_dataProviders_ofDoc {value : Text}
    (holds : DocLine.HoldsValue "@dataProvider".toList isWordChar value line) :
    value ∈ (ofDoc doc).dataProviders :=
  mem_values inner "dataProvider".toList (fun _ => isBlank_of_isWordChar) holds

end Directives

end TagLift
