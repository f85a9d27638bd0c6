import TagLift.Attribute.Argument
import TagLift.Attribute.Directive
import TagLift.Proofs.Text.Replacement
import TagLift.Proofs.Text.Trim

/-!
# Reading new arguments back

A new attribute has strings and class constants as arguments. Escaping puts a backslash in front of
quotes and backslashes, so every quote has an odd number of backslashes in front of it. Dropping one
of them leaves an even number, and these are then halved, which gives the value back. A new argument
holds no colon that could be taken for that of a parameter name.
-/

namespace TagLift

theorem Text.drop_length_takeWhile (p : Char → Bool) (text : Text) :
    text.drop (text.takeWhile p).length = text.dropWhile p := by
  induction text with
  | nil => rfl
  | cons c rest ih =>
      rw [List.takeWhile_cons, List.dropWhile_cons]
      split
      · exact ih
      · rfl

/-! ## Escaping -/

theorem replacePair_cons_of_ne {a b c x : Char} (other : x ≠ a) (rest : Text) :
    replacePair a b c (x :: rest) = x :: replacePair a b c rest := by
  cases rest with
  | nil => rfl
  | cons y rest => rw [replacePair, if_neg fun pair => other pair.1]

theorem replacePair_cons_of_head_ne {a b c x : Char} {rest : Text} (other : rest.head? ≠ some b) :
    replacePair a b c (x :: rest) = x :: replacePair a b c rest := by
  cases rest with
  | nil => rfl
  | cons y rest => rw [replacePair, if_neg fun pair => other (congrArg some pair.2)]

namespace Expr

/-- A text with its backslashes doubled. -/
def doubleBackslashes (value : Text) : Text :=
  value.flatMap fun c => if c = '\\' then ['\\', '\\'] else [c]

theorem escape_head_ne (value : Text) : (escape value).head? ≠ some '\'' := by
  cases value with
  | nil => simp [escape]
  | cons c rest =>
      rw [escape]
      split
      · simp
      next other =>
        rintro ⟨⟩
        exact other (.inl rfl)

/-- Without the backslashes in front of quotes only the doubled ones are left. -/
theorem replacePair_escape (value : Text) :
    replacePair '\\' '\'' '\'' (escape value) = doubleBackslashes value := by
  induction value with
  | nil => rfl
  | cons c rest ih =>
      by_cases quote : c = '\''
      · subst quote
        rw [escape, if_pos (.inl rfl), replacePair, if_pos ⟨rfl, rfl⟩, ih]
        rfl
      by_cases backslash : c = '\\'
      · subst backslash
        rw [escape, if_pos (.inr rfl), replacePair_cons_of_head_ne (by simp),
          replacePair_cons_of_head_ne (escape_head_ne rest), ih]
        rfl
      · rw [escape, if_neg (by simp [quote, backslash]), replacePair_cons_of_ne backslash, ih]
        simp [doubleBackslashes, backslash]

theorem replacePair_doubleBackslashes (value : Text) :
    replacePair '\\' '\\' '\\' (doubleBackslashes value) = value := by
  induction value with
  | nil => rfl
  | cons c rest ih =>
      by_cases backslash : c = '\\'
      · subst backslash
        change replacePair '\\' '\\' '\\' ('\\' :: '\\' :: doubleBackslashes rest) = _
        rw [replacePair, if_pos ⟨rfl, rfl⟩, ih]
      · have single : doubleBackslashes (c :: rest) = c :: doubleBackslashes rest := by
          simp [doubleBackslashes, backslash]
        rw [single, replacePair_cons_of_ne backslash, ih]

/-- Escaping is undone. -/
theorem unescape_escape (value : Text) : unescape (escape value) = value := by
  rw [unescape, replacePair_escape, replacePair_doubleBackslashes]

theorem ofText_quoted (value : Text) :
    ofText ('\'' :: escape value ++ ['\'']) =
      .string value (some ('\'' :: escape value ++ ['\''])) := by
  have inner : unquote? '\'' ('\'' :: escape value ++ ['\'']) = some (escape value) := by
    simp [unquote?]
  rw [ofText, inner]
  exact congrArg (Expr.string · _) (unescape_escape value)

end Expr

/-! ## Class names -/

namespace Name

/-- A name of letters, digits, underscores and backslashes that starts with a letter or an
underscore, or with one backslash in front of it. -/
inductive IsQualified : Text → Prop where
  | bare {c : Char} {rest : Text} : isStart c → (∀ d ∈ rest, isQualifiedPart d) →
      IsQualified (c :: rest)
  | rooted {c : Char} {rest : Text} : isStart c → (∀ d ∈ rest, isQualifiedPart d) →
      IsQualified ('\\' :: c :: rest)

theorem backslash_of_isStart {c : Char} (start : isStart c) : c ≠ '\\' := by
  rintro rfl
  exact absurd start (by decide)

/-- A qualified name is read up to a character that cannot continue it. -/
theorem qualified?_append {name : Text} (qualified : IsQualified name) {back : Text}
    (stop : ∀ c ∈ back.head?, isQualifiedPart c = false) :
    qualified? (name ++ back) = some name := by
  have taken {rest : Text} (parts : ∀ d ∈ rest, isQualifiedPart d) :
      (rest ++ back).takeWhile isQualifiedPart = rest := by
    rw [List.takeWhile_append_of_pos parts]
    cases back with
    | nil => simp
    | cons c back => simp [stop c rfl]
  cases qualified with
  | bare start parts =>
      rw [List.cons_append, qualified?]
      · rw [if_pos start, taken parts]
      · rintro c rest ⟨⟩ -
        exact backslash_of_isStart start rfl
  | rooted start parts =>
      rw [List.cons_append, List.cons_append, qualified?, if_pos start, taken parts]

theorem isQualified_of_qualified? {text name : Text} (read : qualified? text = some name) :
    IsQualified name := by
  have parts (rest : Text) : ∀ d ∈ rest.takeWhile isQualifiedPart, isQualifiedPart d :=
    fun d member => List.mem_takeWhile_imp member
  unfold qualified? at read
  split at read
  next c rest =>
    split at read
    next start =>
      obtain rfl := Option.some.inj read
      exact .rooted start (parts rest)
    · cases read
  next c rest _ =>
    split at read
    next start =>
      obtain rfl := Option.some.inj read
      exact .bare start (parts rest)
    · cases read
  · cases read

end Name

theorem Name.toNat_of_isAlpha {c : Char} (alpha : c.isAlpha) : 65 ≤ c.toNat ∧ c.toNat ≤ 122 := by
  rcases (Bool.or_eq_true c.isUpper c.isLower).mp alpha with upper | lower
  · have bounds : c.val ≥ 'A'.val ∧ c.val ≤ 'Z'.val := of_decide_eq_true upper
    exact ⟨bounds.1, Nat.le_trans bounds.2 (by decide)⟩
  · have bounds := (Bool.and_eq_true _ _).mp lower
    exact ⟨Nat.le_trans (by decide) (of_decide_eq_true bounds.1), of_decide_eq_true bounds.2⟩

theorem Name.isBlank_of_isQualifiedPart {c : Char} (part : isQualifiedPart c) :
    isBlank c = false := by
  -- Letters and digits lie between the last white space of ASCII and the first behind it.
  have solid (bounds : 33 ≤ c.toNat ∧ c.toNat ≤ 126) : isBlank c = false := by
    simp only [isBlank, Bool.or_eq_false_iff, Bool.and_eq_false_iff, decide_eq_false_iff_not,
      beq_eq_false_iff_ne]
    omega
  simp only [isQualifiedPart, isPart, Char.isAlphanum, Char.isDigit, Bool.or_eq_true,
    Bool.and_eq_true, decide_eq_true_eq, beq_iff_eq, ge_iff_le, UInt32.le_iff_toNat_le] at part
  rcases part with ((alpha | ⟨low, high⟩) | rfl) | rfl
  · have bounds := toNat_of_isAlpha alpha
    exact solid ⟨le_trans (by decide) bounds.1, le_trans bounds.2 (by decide)⟩
  · exact solid ⟨le_trans (by decide) low, le_trans high (by decide)⟩
  · decide
  · decide

/-- A class name starts with a character that is neither a quote nor white space. -/
theorem Name.IsQualified.exists_cons {name : Text} (qualified : IsQualified name) :
    ∃ c rest, name = c :: rest ∧ isQualifiedPart c := by
  cases qualified with
  | @bare c rest start parts =>
      refine ⟨c, rest, rfl, ?_⟩
      simp only [isStart, isQualifiedPart, isPart, Char.isAlphanum, Bool.or_eq_true] at start ⊢
      tauto
  | rooted start parts => exact ⟨'\\', _, rfl, by decide⟩

namespace Expr

theorem unquote?_eq_none {quote c : Char} (other : c ≠ quote) (rest : Text) :
    unquote? quote (c :: rest) = none := by
  rw [unquote?, if_neg fun both => other both.1]

theorem className?_classConst {className : Text} (qualified : Name.IsQualified className) :
    className? (className ++ "::class".toList) = some className := by
  have stop : ∀ c ∈ "::class".toList.head?, Name.isQualifiedPart c = false := by
    rintro _ ⟨⟩
    decide
  simp only [className?, Name.qualified?_append qualified stop, Option.bind_eq_bind,
    Option.bind_some, List.drop_left]
  rfl

/-- A class constant is read as one. -/
theorem ofText_classConst {className : Text} (qualified : Name.IsQualified className) :
    ofText (className ++ "::class".toList) = .classConst className := by
  obtain ⟨c, rest, rfl, part⟩ := qualified.exists_cons
  have single : c ≠ '\'' := by
    rintro rfl
    exact absurd part (by decide)
  have double : c ≠ '"' := by
    rintro rfl
    exact absurd part (by decide)
  have read := className?_classConst qualified
  rw [List.cons_append] at read ⊢
  rw [ofText, unquote?_eq_none single, unquote?_eq_none double, read]

end Expr

/-! ## Arguments -/

namespace Arg

theorem isLetter_of_isAlpha {c : Char} (alpha : c.isAlpha) : isLetter c := by
  have small : c.toNat < 128 := Nat.lt_of_le_of_lt (Name.toNat_of_isAlpha alpha).2 (by decide)
  rw [isLetter, if_pos small, alpha]

/-- What continues a class name continues a parameter name too, except for a backslash. -/
theorem eq_backslash_of_isQualifiedPart {c : Char} (part : Name.isQualifiedPart c)
    (other : ¬(c == '_' || isLetter c || c.isDigit)) : c = '\\' := by
  have letter : c.isAlpha → isLetter c := isLetter_of_isAlpha
  simp only [Name.isQualifiedPart, Name.isPart, Char.isAlphanum, Bool.or_eq_true,
    beq_iff_eq] at part other
  tauto

theorem splitName?_of_head {c : Char} (other : (c == '_' || isLetter c) = false) (rest : Text) :
    splitName? (c :: rest) = none := by
  simp only [splitName?, parameterName, other]
  rfl

/-- Behind the first segment of a class constant stands a backslash or the double colon. -/
theorem dropWhile_classConst {rest : Text} (parts : ∀ d ∈ rest, Name.isQualifiedPart d) :
    ∃ c tail, (rest ++ "::class".toList).dropWhile
        (fun c => c == '_' || isLetter c || c.isDigit) = c :: tail ∧
      (c = '\\' ∨ c = ':' ∧ tail.head? = some ':') := by
  induction rest with
  | nil =>
      refine ⟨':', ":class".toList, ?_, .inr ⟨rfl, rfl⟩⟩
      exact List.dropWhile_cons_of_neg (by decide)
  | cons d rest ih =>
      obtain ⟨here, later⟩ := List.forall_mem_cons.1 parts
      by_cases inName : d == '_' || isLetter d || d.isDigit
      · rw [List.cons_append, List.dropWhile_cons, if_pos inName]
        exact ih later
      · rw [List.cons_append, List.dropWhile_cons, if_neg inName]
        exact ⟨d, _, rfl, .inl (eq_backslash_of_isQualifiedPart here inName)⟩

/-- The double colon of a class constant ends no parameter name. -/
theorem splitName?_classConst {className : Text} (qualified : Name.IsQualified className) :
    splitName? (className ++ "::class".toList) = none := by
  cases qualified with
  | rooted start parts => exact splitName?_of_head (by decide) _
  | @bare c rest start parts =>
      rw [List.cons_append]
      cases first : c == '_' || isLetter c with
      | false => exact splitName?_of_head first _
      | true =>
          obtain ⟨d, tail, behind, colon⟩ := dropWhile_classConst parts
          have solid : ∀ e ∈ (d :: tail).head?, isBlank e = false := by
            rintro _ ⟨⟩
            rcases colon with rfl | ⟨rfl, -⟩ <;> decide
          simp only [splitName?, parameterName, first, if_true, List.isEmpty_cons, List.length_cons,
            List.drop_succ_cons, Text.drop_length_takeWhile, behind, Text.trimStart_eq_self solid]
          rcases colon with rfl | ⟨rfl, double⟩
          · rfl
          · obtain ⟨others, rfl⟩ := List.head?_eq_some_iff.1 double
            rfl

/-- A new string is read back with its value and its spelling. -/
theorem ofText_string (value : Text) :
    ofText (Expr.string value none).render =
      .positional (.string value (some (Expr.string value none).render)) := by
  have tight : Text.Tight ('\'' :: Expr.escape value ++ ['\'']) := by
    have quote : Text.Tight ['\''] := .of_solid (Text.forall_mem_of_all rfl)
    exact quote.append quote (by simp) (by simp) (Expr.escape value)
  have unnamed : splitName? ('\'' :: Expr.escape value ++ ['\'']) = none :=
    splitName?_of_head (by decide) _
  simp only [Expr.render, ofText, tight.trim, unnamed, Expr.ofText_quoted]

/-- A new class constant is read back as itself. -/
theorem ofText_classConst {className : Text} (qualified : Name.IsQualified className) :
    ofText (Expr.classConst className).render = .positional (.classConst className) := by
  have tight : Text.Tight (className ++ "::class".toList) := by
    obtain ⟨c, rest, rfl, part⟩ := qualified.exists_cons
    have first : Text.Tight [c] :=
      .of_solid (by simpa using Name.isBlank_of_isQualifiedPart part)
    have last : Text.Tight "::class".toList := .of_solid (Text.forall_mem_of_all rfl)
    exact first.append last (by simp) (by decide) rest
  simp only [Expr.render, ofText, tight.trim, splitName?_classConst qualified,
    Expr.ofText_classConst qualified]

end Arg

/-! ## Attributes -/

/-- An expression that is written without having been read. -/
inductive Expr.IsNew : Expr → Prop where
  | string (value : Text) : IsNew (.string value none)
  | classConst {className : Text} : Name.IsQualified className → IsNew (.classConst className)

theorem Expr.IsNew.canonical_ofText {expr : Expr} (new : expr.IsNew) :
    (Arg.ofText expr.render).value.canonical = expr.canonical := by
  cases new with
  | string value =>
      rw [Arg.ofText_string]
      rfl
  | classConst qualified =>
      rw [Arg.ofText_classConst qualified]
      rfl

/-- The attribute with every argument read from its text. -/
def Attribute.readBack (attr : Attribute) : Attribute :=
  { attr with args := attr.args.map fun arg => Arg.ofText arg.render }

/-- The group as a source holds it at a span, with every argument read from its text. -/
def AttributeGroup.readBack (group : AttributeGroup) (span : Span) : AttributeGroup :=
  ⟨some span, group.attributes.map Attribute.readBack⟩

namespace Directive

/-- A directive whose attribute holds a class name only in the form of a tag. -/
def IsReadable : Directive → Prop
  | .covers ref => Name.IsQualified ref.className
  | _ => True

theorem IsReadable.isNew {directive : Directive} (readable : directive.IsReadable) :
    ∀ value ∈ directive.values, value.IsNew := by
  cases directive with
  | test => simp [values]
  | group value => simpa [values] using Expr.IsNew.string value
  | dataProvider method => simpa [values] using Expr.IsNew.string method
  | covers ref => simpa [values] using ⟨Expr.IsNew.classConst readable, .string ref.method⟩

theorem isReadable_of_mem_covers {doc : Text} {ref : CoversRef}
    (member : ref ∈ (Directives.ofDoc doc).covers) : IsReadable (.covers ref) := by
  obtain ⟨line, -, read⟩ := List.mem_flatMap.1 member
  obtain ⟨found, isFound, rfl⟩ := List.mem_map.1 read
  obtain ⟨text, read⟩ := Form.exists_of_mem_findFrom isFound
  simp only [Tag.covers, Option.bind_eq_bind, Option.bind_eq_some_iff] at read
  obtain ⟨rest, -, read⟩ := read
  split at read
  · cases read
  · simp only [Option.bind_eq_some_iff, pure, Option.some.injEq] at read
    obtain ⟨className, named, -, -, method, -, rfl⟩ := read
    exact Name.isQualified_of_qualified? named

/-- The group of a directive is the same as what is read back from its text. -/
theorem IsReadable.same_readBack {directive : Directive} (readable : directive.IsReadable)
    (span : Span) : directive.toGroup.same (directive.toGroup.readBack span) := by
  let attr : Attribute := ⟨directive.shortName, directive.values.map Arg.positional⟩
  have equal : ∀ arg ∈ attr.args, (Arg.ofText arg.render).value.canonical = arg.value.canonical :=
    List.forall_mem_map.2 fun value member => (readable.isNew value member).canonical_ofText
  have same : attr.same attr.readBack := by
    simp only [Attribute.same, Attribute.readBack, List.map_map, beq_self_eq_true, Bool.true_and,
      beq_iff_eq]
    exact (List.map_congr_left equal).symm
  simp only [AttributeGroup.same, AttributeGroup.readBack, toGroup, AttributeGroup.single,
    List.map_singleton, List.length_singleton, List.zip_cons_cons, List.zip_nil_left,
    List.all_cons, List.all_nil, Bool.and_true, beq_self_eq_true, Bool.true_and]
  exact same

/-- New arguments are read back as they were meant: a string with its value and the text that was
written, a class constant with its class. So the group of a directive that a doc comment holds is
found again in the source it was written to, and not added a second time. -/
theorem new_arguments_read_back :
    (∀ value, Arg.ofText (Expr.string value none).render =
      .positional (.string value (some (Expr.string value none).render))) ∧
    (∀ className, Name.IsQualified className →
      Arg.ofText (Expr.classConst className).render = .positional (.classConst className)) ∧
    (∀ expr : Expr, expr.IsNew →
      (Arg.ofText expr.render).value.canonical = expr.canonical) ∧
    (∀ directive : Directive, directive.IsReadable → ∀ span groups,
      directive.toGroup.readBack span ∈ groups →
      AttributeGroup.pushUnique groups directive.toGroup = groups) ∧
    ∀ doc, ∀ ref ∈ (Directives.ofDoc doc).covers, IsReadable (.covers ref) := by
  refine ⟨Arg.ofText_string, fun _ => Arg.ofText_classConst, fun _ => Expr.IsNew.canonical_ofText,
    ?_, fun _ _ => isReadable_of_mem_covers⟩
  intro directive readable span groups member
  have found : directive.toGroup.isIn groups :=
    List.any_eq_true.2 ⟨_, member, readable.same_readBack span⟩
  rw [AttributeGroup.pushUnique, if_pos found]

/-- A string with a colon, a quote behind a backslash and a backslash at its end, and a method of a
class with a backslash in front that a doc comment covers. -/
theorem covered_method_read_back :
    let value := "a: \\'b\\".toList
    let written := "'a: \\\\\\'b\\\\'".toList
    let ref : CoversRef := ⟨"\\App\\Foo".toList, "bar".toList⟩
    let group : AttributeGroup := ⟨some ⟨4, 40⟩, [⟨"CoversMethod".toList,
      [.positional (.classConst ref.className),
        .positional (.string ref.method (some "'bar'".toList))]⟩]⟩
    Arg.ofText written = .positional (.string value (some written)) ∧
      ref ∈ (Directives.ofDoc " * @covers \\App\\Foo::bar".toList).covers ∧
      Name.IsQualified ref.className ∧
      Arg.ofText "\\App\\Foo::class".toList = .positional (.classConst ref.className) ∧
      AttributeGroup.pushUnique [group] (toGroup (.covers ref)) = [group] := by
  intro value written ref group
  obtain ⟨strings, classes, -, guard, found⟩ := new_arguments_read_back
  have spelled : (Expr.string value none).render = written := by decide +kernel
  have inDoc : ref ∈ (Directives.ofDoc " * @covers \\App\\Foo::bar".toList).covers := by
    decide +kernel
  have readable := found _ ref inDoc
  have again : (toGroup (.covers ref)).readBack ⟨4, 40⟩ = group := by decide +kernel
  refine ⟨?_, inDoc, readable, classes ref.className readable, ?_⟩
  · rw [← spelled]
    exact strings value
  · exact guard (.covers ref) readable ⟨4, 40⟩ [group] (by simp [again])

end Directive

end TagLift
