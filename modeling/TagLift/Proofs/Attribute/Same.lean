import TagLift.Proofs.Attribute.ReadBack

/-!
# Attributes that are the same

Attributes are compared by their names and the canonical texts of their arguments, so being the same
is an equivalence. The canonical text of a new string is its escaped text without quotes at its
ends. A single quote of the value keeps the backslash in front of it, but a double quote at an end
of the value is lost: two new strings have the same canonical text exactly if they differ in double
quotes at their ends only.
-/

namespace TagLift

/-! ## What is compared -/

namespace Attribute

/-- What of an attribute is compared. -/
def key (attr : Attribute) : Text × List Text :=
  (attr.name, attr.args.map (·.value.canonical))

theorem same_iff {left right : Attribute} : left.same right ↔ left.key = right.key := by
  simp [same, key]

theorem equivalence_same : Equivalence fun left right : Attribute => left.same right := by
  simp only [same_iff]
  exact ⟨fun _ => rfl, Eq.symm, Eq.trans⟩

end Attribute

namespace AttributeGroup

/-- What of a group is compared. -/
def key (group : AttributeGroup) : List (Text × List Text) :=
  group.attributes.map Attribute.key

theorem same_iff {left right : AttributeGroup} : left.same right ↔ left.key = right.key := by
  obtain ⟨-, attributes⟩ := left
  obtain ⟨-, others⟩ := right
  simp only [same, key, Bool.and_eq_true, beq_iff_eq]
  induction attributes generalizing others with
  | nil => cases others <;> simp
  | cons attr attributes ih =>
      cases others with
      | nil => simp
      | cons other others =>
          simp only [List.length_cons, Nat.add_right_cancel_iff, List.zip_cons_cons, List.all_cons,
            Bool.and_eq_true, Attribute.same_iff, List.map_cons, List.cons.injEq, ← ih others]
          exact and_left_comm

theorem equivalence_same : Equivalence fun left right : AttributeGroup => left.same right := by
  simp only [same_iff]
  exact ⟨fun _ => rfl, Eq.symm, Eq.trans⟩

theorem same_comm (left right : AttributeGroup) : left.same right = right.same left :=
  Bool.eq_iff_iff.2 ⟨equivalence_same.symm, equivalence_same.symm⟩

end AttributeGroup

/-! ## New strings -/

/-- The text without double quotes at its ends. -/
def Text.unquoted (text : Text) : Text :=
  dropEndWhile (· == '"') (text.dropWhile (· == '"'))

namespace Expr

theorem escape_append (left right : Text) :
    escape (left ++ right) = escape left ++ escape right := by
  induction left with
  | nil => rfl
  | cons c left ih =>
      rw [List.cons_append, escape, escape]
      split
      · rw [ih, List.cons_append, List.cons_append]
      · rw [ih, List.cons_append]

theorem escape_injective : Function.Injective escape :=
  Function.LeftInverse.injective unescape_escape

/-- Double quotes are not escaped. -/
theorem escape_doubleQuotes {quotes : Text} (all : ∀ c ∈ quotes, c = '"') :
    escape quotes = quotes := by
  induction quotes with
  | nil => rfl
  | cons c quotes ih =>
      obtain ⟨rfl, later⟩ := List.forall_mem_cons.1 all
      rw [escape, if_neg (by decide), ih later]

/-- Only a double quote in front of a value stays in front of the escaped text as a quote. -/
theorem isQuote_head_escape {value : Text} (other : value.head? ≠ some '"') :
    ∀ c ∈ (escape value).head?, isQuote c = false := by
  cases value with
  | nil => simp [escape]
  | cons d value =>
      rw [escape]
      split
      · rintro _ ⟨⟩
        rfl
      next plain =>
        rintro _ ⟨⟩
        have double : d ≠ '"' := by simpa using other
        have single : d ≠ '\'' := fun quote => plain (.inl quote)
        simp [isQuote, double, single]

/-- An escaped text does not go on with a lone backslash. -/
theorem escape_append_backslash_ne (left right : Text) : escape left ++ ['\\'] ≠ escape right := by
  induction left generalizing right with
  | nil =>
      cases right with
      | nil => simp [escape]
      | cons d right =>
          by_cases escaped : d = '\'' ∨ d = '\\'
          · simp [escape, escaped]
          · have other : d ≠ '\\' := fun backslash => escaped (.inr backslash)
            simp [escape, escaped, other.symm]
  | cons c left ih =>
      cases right with
      | nil => by_cases escaped : c = '\'' ∨ c = '\\' <;> simp [escape, escaped]
      | cons d right =>
          -- The codes of the first characters agree only if the characters do.
          intro equal
          have later : escape left ++ ['\\'] = escape right := by
            rw [escape, escape] at equal
            split at equal <;> split at equal
            · simp_all
            next plain =>
              have first : '\\' = d := List.head_eq_of_cons_eq equal
              exact absurd (.inr first.symm) plain
            next plain _ =>
              have first : c = '\\' := List.head_eq_of_cons_eq equal
              exact absurd (.inr first) plain
            · simp_all
          exact ih right later

/-- The canonical text of a new string is made from its value without double quotes at its ends. -/
theorem canonical_string (value : Text) :
    (Expr.string value none).canonical = Text.dropEndWhile isQuote (escape value.unquoted) := by
  -- The value is its double quotes in front and a rest, and the rest is a core and those behind it.
  let front := value.takeWhile (· == '"')
  let rest := value.dropWhile (· == '"')
  obtain ⟨back, restEq, backAll⟩ := Text.exists_eq_dropEndWhile_append (· == '"') rest
  have frontAll : ∀ c ∈ front, c = '"' := fun c member =>
    beq_iff_eq.1 (List.mem_takeWhile_imp (p := (· == '"')) member)
  have backAll : ∀ c ∈ back, c = '"' := fun c member => beq_iff_eq.1 (backAll c member)
  have isQuote_of_mem {quotes : Text} (all : ∀ c ∈ quotes, c = '"') : ∀ c ∈ quotes, isQuote c :=
    fun c member => all c member ▸ rfl
  have spelled : '\'' :: escape value ++ ['\''] = ('\'' :: front) ++ (escape rest ++ ['\'']) := by
    have split : value = front ++ rest := List.takeWhile_append_dropWhile.symm
    rw [split, escape_append, escape_doubleQuotes frontAll]
    simp only [List.cons_append, List.append_assoc]
  have quotes : ∀ c ∈ '\'' :: front, isQuote c :=
    List.forall_mem_cons.2 ⟨rfl, isQuote_of_mem frontAll⟩
  have stays : (escape rest).dropWhile isQuote = escape rest := by
    refine Text.dropWhile_eq_self (isQuote_head_escape fun first => ?_)
    have fails := List.head?_dropWhile_not (· == '"') value
    simp [rest, first] at fails
  have core : Text.dropEndWhile isQuote ((escape rest ++ ['\'']).dropWhile isQuote) =
      Text.dropEndWhile isQuote (escape rest) := by
    rw [List.dropWhile_append, stays]
    split
    next nothing =>
      rw [List.isEmpty_iff.1 nothing]
      rfl
    · exact Text.dropEndWhile_append_of_all (by simp [isQuote]) _
  rw [canonical, render, spelled, List.dropWhile_append_of_pos quotes, core, restEq, escape_append,
    escape_doubleQuotes backAll]
  exact Text.dropEndWhile_append_of_all (isQuote_of_mem backAll) _

/-- At the end of a core a single quote goes and leaves its backslash, and all else stays. -/
theorem dropEndWhile_escape {value : Text} (core : value.getLast? ≠ some '"') :
    (∃ front, value = front ++ ['\''] ∧
      Text.dropEndWhile isQuote (escape value) = escape front ++ ['\\']) ∨
    Text.dropEndWhile isQuote (escape value) = escape value := by
  rcases value.eq_nil_or_concat with rfl | ⟨front, last, rfl⟩
  · exact .inr rfl
  · simp only [List.concat_eq_append] at core ⊢
    by_cases single : last = '\''
    · subst single
      refine .inl ⟨front, rfl, ?_⟩
      have code : escape (front ++ ['\'']) = (escape front ++ ['\\']) ++ ['\''] := by
        rw [escape_append]
        simp [escape]
      rw [code, Text.dropEndWhile_append_of_all (by simp [isQuote])]
      exact Text.dropEndWhile_eq_self (by simp [isQuote])
    · have double : last ≠ '"' := by simpa using core
      refine .inr (Text.dropEndWhile_eq_self fun c isLast => ?_)
      have same : c = last := by
        by_cases escaped : last = '\\' <;> simp_all [escape_append, escape, eq_comm]
      simp [same, isQuote, single, double]

/-- Two new strings have the same canonical text exactly if they differ in double quotes at their
ends only. -/
theorem canonical_string_eq_iff {left right : Text} :
    (Expr.string left none).canonical = (Expr.string right none).canonical ↔
      left.unquoted = right.unquoted := by
  rw [canonical_string, canonical_string]
  refine ⟨fun equal => ?_, fun equal => by rw [equal]⟩
  have core (text : Text) : text.unquoted.getLast? ≠ some '"' := fun last => by
    simpa using Text.getLast?_dropEndWhile '"' last
  rcases dropEndWhile_escape (core left) with ⟨front, leftEq, leftEnd⟩ | leftEnd <;>
    rcases dropEndWhile_escape (core right) with ⟨front', rightEq, rightEnd⟩ | rightEnd <;>
    rw [leftEnd, rightEnd] at equal
  · rw [leftEq, rightEq, escape_injective (List.append_cancel_right equal)]
  · exact absurd equal (escape_append_backslash_ne _ _)
  · exact absurd equal.symm (escape_append_backslash_ne _ _)
  · exact escape_injective equal

end Expr

end TagLift
