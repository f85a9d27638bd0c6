import TagLift.Import.Parse
import TagLift.Proofs.Text.Trim

/-!
# Reading what was written

An import can be written as a statement of its own, as an item of a comma list, or as an item of a
group with a common front part. All three are `use`, the keyword of a kind and a body, and reading
first takes that frame off. What is left is a list of items between commas, each of which is read
on its own. Names must be plain for this: a name with white space or a separator would end early,
and one whose last segment is a keyword of a kind could be taken for that keyword.
-/

namespace TagLift

namespace Import

/-! ## Written forms -/

/-- Whether a character separates or ends the items of a declaration. -/
def isSeparator (c : Char) : Bool :=
  c == ',' || c == ';' || c == '{' || c == '}'

/-- A text without white space and separators. -/
structure IsWord (text : Text) : Prop where
  nonempty : text ≠ []
  solid : ∀ c ∈ text, isBlank c = false
  whole : ∀ c ∈ text, isSeparator c = false

instance (text : Text) : Decidable (IsWord text) :=
  decidable_of_iff (text ≠ [] ∧ text.all (!isBlank ·) ∧ text.all (!isSeparator ·))
    ⟨fun ⟨nonempty, solid, whole⟩ =>
        ⟨nonempty, Text.forall_mem_of_all solid, Text.forall_mem_of_all whole⟩,
      fun word => ⟨word.nonempty, by simpa using word.solid, by simpa using word.whole⟩⟩

/-- What follows the last backslash of a name. -/
def lastSegment (name : Text) : Text :=
  (name.reverse.takeWhile (· != '\\')).reverse

/-- The keywords that a body must not start with. -/
def kindKeywords : List Text :=
  ["function".toList, "const".toList]

/-- A word that neither starts nor ends with a backslash and whose last segment is no keyword. -/
structure IsPlainName (name : Text) : Prop where
  word : IsWord name
  start : name.head? ≠ some '\\'
  stop : name.getLast? ≠ some '\\'
  segment : lastSegment name ∉ kindKeywords

instance (name : Text) : Decidable (IsPlainName name) :=
  decidable_of_iff
    (IsWord name ∧ name.head? ≠ some '\\' ∧ name.getLast? ≠ some '\\' ∧
      lastSegment name ∉ kindKeywords)
    ⟨fun ⟨word, start, stop, segment⟩ => ⟨word, start, stop, segment⟩,
      fun plain => ⟨plain.word, plain.start, plain.stop, plain.segment⟩⟩

/-- An import whose names can be written down. -/
structure Plain (decl : Import) : Prop where
  name : IsPlainName decl.name
  asName : ∀ asName ∈ decl.asName, IsWord asName

instance (decl : Import) : Decidable (Plain decl) :=
  decidable_of_iff (IsPlainName decl.name ∧ ∀ asName ∈ decl.asName, IsWord asName)
    ⟨fun ⟨name, asName⟩ => ⟨name, asName⟩, fun plain => ⟨plain.name, plain.asName⟩⟩

/-- The other name of an import as it follows the name. -/
def asPart (decl : Import) : Text :=
  match decl.asName with
  | some asName => " as ".toList ++ asName
  | none => []

/-- The import as an item of a list, without its kind. -/
def item (decl : Import) : Text :=
  decl.name ++ decl.asPart

/-- A `use` declaration for a kind with a body. -/
def declaration (kind : ImportKind) (body : Text) : Text :=
  "use ".toList ++ kind.keyword ++ body ++ [';']

/-- Items with commas between them. -/
def listing (items : List Text) : Text :=
  ", ".toList.intercalate items

/-- Imports of one kind written as a comma list. -/
def renderList (kind : ImportKind) (decls : List Import) : Text :=
  declaration kind (listing (decls.map item))

/-- An item of a group with the keyword of its own kind; a class has none. -/
def kindItem (decl : Import) : Text :=
  decl.kind.keyword ++ decl.item

/-- A comma at the end of a group, or none. -/
def lastComma (comma : Bool) : Text :=
  if comma then [','] else []

/-- Imports written as a group behind a common front part, with or without a comma at the end. -/
def renderGroup (kind : ImportKind) (front : Text) (items : List Import) (comma : Bool) : Text :=
  declaration kind
    (front ++ ['\\'] ++ '{' :: (listing (items.map kindItem) ++ lastComma comma ++ ['}']))

/-- The kind of an item with this keyword in a declaration of another kind. -/
def ownKind (own outer : ImportKind) : ImportKind :=
  match own with
  | .classLike => outer
  | own => own

/-- An item of a group as an import of its own. -/
def inGroup (kind : ImportKind) (front : Text) (decl : Import) : Import :=
  ⟨ownKind decl.kind kind, front ++ ['\\'] ++ decl.name, decl.asName⟩

theorem render_eq_declaration (decl : Import) : decl.render = declaration decl.kind decl.item :=
  congrArg (· ++ [';']) (List.append_assoc _ decl.name decl.asPart)

/-! ## Keywords -/

theorem afterKeyword?_gap (keyword : Text) {c : Char} {gap rest : Text} (blank : isBlank c)
    (blanks : gap.isAllBlank) (solid : ∀ c ∈ rest.head?, isBlank c = false) :
    afterKeyword? keyword (keyword ++ c :: (gap ++ rest)) = some rest := by
  have read : keyword.isPrefixOf? (keyword ++ c :: (gap ++ rest)) = some (c :: (gap ++ rest)) :=
    List.isPrefixOf?_eq_some_iff_append_eq.2 rfl
  have trimmed : Text.trimStart (c :: (gap ++ rest)) = rest := by
    rw [Text.trimStart_cons blank, Text.trimStart_blank_append blanks,
      Text.trimStart_eq_self solid]
  simp only [afterKeyword?, read, Option.bind_eq_bind, Option.bind_some, List.head?_cons,
    Option.any_some, blank, if_true, trimmed]

theorem afterKeyword?_append (keyword : Text) {rest : Text}
    (solid : ∀ c ∈ rest.head?, isBlank c = false) :
    afterKeyword? keyword (keyword ++ ' ' :: rest) = some rest :=
  afterKeyword?_gap keyword (by decide) (rfl : Text.isAllBlank []) solid

/-- Only a text whose first word is the keyword is read behind it. -/
theorem takeWhile_of_afterKeyword? {keyword text rest : Text}
    (solid : ∀ c ∈ keyword, isBlank c = false) (read : afterKeyword? keyword text = some rest) :
    text.takeWhile (!isBlank ·) = keyword := by
  simp only [afterKeyword?, Option.bind_eq_bind, Option.bind_eq_some_iff,
    List.isPrefixOf?_eq_some_iff_append_eq] at read
  obtain ⟨behind, rfl, read⟩ := read
  rw [List.takeWhile_append_of_pos (by simpa using solid)]
  split at read
  next blank =>
    obtain ⟨c, first, isBlankFirst⟩ := (Option.any_eq_true _ _).1 blank
    obtain ⟨others, rfl⟩ := List.head?_eq_some_iff.1 first
    simp [isBlankFirst]
  · cases read

theorem solid_of_mem_kindKeywords {keyword : Text} (member : keyword ∈ kindKeywords) :
    ∀ c ∈ keyword, isBlank c = false := by
  refine Text.forall_mem_of_all ?_
  revert keyword
  decide

/-- A text whose first word is not a keyword of a kind. -/
def KeywordFree (text : Text) : Prop :=
  text.takeWhile (!isBlank ·) ∉ kindKeywords

theorem afterKeyword?_eq_none {keyword text : Text} (member : keyword ∈ kindKeywords)
    (free : KeywordFree text) : afterKeyword? keyword text = none := by
  rw [Option.eq_none_iff_forall_ne_some]
  intro rest read
  rw [KeywordFree, takeWhile_of_afterKeyword? (solid_of_mem_kindKeywords member) read] at free
  exact free member

theorem splitKind_of_keywordFree {text : Text} (free : KeywordFree text) (kind : ImportKind) :
    splitKind text kind = (kind, text) := by
  rw [splitKind, afterKeyword?_eq_none (by decide) free, afterKeyword?_eq_none (by decide) free]

/-- What may follow a name: nothing, white space, a comma or a backslash. -/
def EndsName (rest : Text) : Prop :=
  ∀ c ∈ rest.head?, isBlank c ∨ c = ',' ∨ c = '\\'

theorem endsName_asPart (decl : Import) {rest : Text} (ends : EndsName rest) :
    EndsName (decl.asPart ++ rest) := by
  unfold asPart
  cases decl.asName with
  | none => exact ends
  | some asName =>
      intro c first
      obtain rfl : ' ' = c := by simpa using first
      exact .inl (by decide)

theorem IsPlainName.keywordFree {name rest : Text} (plain : IsPlainName name)
    (ends : EndsName rest) : KeywordFree (name ++ rest) := by
  rw [KeywordFree, List.takeWhile_append_of_pos (by simpa using plain.word.solid)]
  intro member
  have ⟨noComma, noBackslash⟩ : ',' ∉ name ++ rest.takeWhile (!isBlank ·) ∧
      '\\' ∉ name ++ rest.takeWhile (!isBlank ·) := by
    revert member
    generalize name ++ rest.takeWhile (!isBlank ·) = keyword
    revert keyword
    decide
  have nothing : rest.takeWhile (!isBlank ·) = [] := by
    cases rest with
    | nil => rfl
    | cons c others =>
        by_cases blank : isBlank c
        · simp [blank]
        · rcases ends c rfl with blank' | rfl | rfl
          · exact absurd blank' blank
          · exact absurd (by simp [blank]) noComma
          · exact absurd (by simp [blank]) noBackslash
  rw [nothing, List.append_nil] at member noBackslash
  -- Without a backslash the name is its own last segment.
  have whole : lastSegment name = name := by
    have all : name.reverse.takeWhile (· != '\\') = name.reverse :=
      List.takeWhile_eq_self_iff.2 fun c inside => bne_iff_ne.2 fun same =>
        noBackslash (same ▸ List.mem_reverse.1 inside)
    rw [lastSegment, all, List.reverse_reverse]
  exact plain.segment (whole.symm ▸ member)

theorem Plain.keywordFree {decl : Import} (plain : Plain decl) {rest : Text}
    (ends : EndsName rest) : KeywordFree (decl.item ++ rest) := by
  rw [item, List.append_assoc]
  exact plain.name.keywordFree (endsName_asPart decl ends)

theorem splitKind_keyword (own outer : ImportKind) {body : Text}
    (solid : ∀ c ∈ body.head?, isBlank c = false) (free : KeywordFree body) :
    splitKind (own.keyword ++ body) outer = (ownKind own outer, body) := by
  cases own with
  | classLike => exact splitKind_of_keywordFree free outer
  | function =>
      change splitKind ("function".toList ++ ' ' :: body) outer = (.function, body)
      rw [splitKind, afterKeyword?_append "function".toList solid]
  | constant =>
      change splitKind ("const".toList ++ ' ' :: body) outer = (.constant, body)
      rw [splitKind, afterKeyword?_append "const".toList solid]
      rfl

/-! ## Items -/

/-- A text that can stand between two commas as it is. -/
structure IsItem (text : Text) : Prop where
  nonempty : text ≠ []
  tight : Text.Tight text
  whole : ∀ c ∈ text, isSeparator c = false

theorem IsWord.isItem {text : Text} (word : IsWord text) : IsItem text :=
  ⟨word.nonempty, .of_solid word.solid, word.whole⟩

/-- Two items with white space between them are one item. -/
theorem IsItem.append {left right middle : Text} (first : IsItem left) (second : IsItem right)
    (whole : ∀ c ∈ middle, isSeparator c = false) : IsItem (left ++ middle ++ right) where
  nonempty := by simp [first.nonempty]
  tight := first.tight.append second.tight first.nonempty second.nonempty middle
  whole := List.forall_mem_append.2 ⟨List.forall_mem_append.2 ⟨first.whole, whole⟩, second.whole⟩

theorem Plain.isItem {decl : Import} (plain : Plain decl) : IsItem decl.item := by
  unfold item asPart
  cases other : decl.asName with
  | none => simpa using plain.name.word.isItem
  | some asName =>
      rw [← List.append_assoc]
      exact plain.name.word.isItem.append (plain.asName asName other).isItem
        (Text.forall_mem_of_all rfl)

theorem tight_keyword_append (kind : ImportKind) {body : Text} (tight : Text.Tight body)
    (nonempty : body ≠ []) : Text.Tight (kind.keyword ++ body) := by
  have keyword (word : Text) (member : word ∈ kindKeywords) :
      Text.Tight (word ++ [' '] ++ body) := by
    refine (Text.Tight.of_solid (solid_of_mem_kindKeywords member)).append tight ?_ nonempty _
    rintro rfl
    exact absurd member (by decide)
  cases kind with
  | classLike => exact tight
  | function => exact keyword "function".toList (by decide)
  | constant => exact keyword "const".toList (by decide)

theorem IsItem.keyword_append {text : Text} (kind : ImportKind) (item : IsItem text) :
    IsItem (kind.keyword ++ text) where
  nonempty := by simp [item.nonempty]
  tight := tight_keyword_append kind item.tight item.nonempty
  whole := List.forall_mem_append.2 ⟨Text.forall_mem_of_all (by cases kind <;> rfl), item.whole⟩

theorem ofItem?_item {decl : Import} (plain : Plain decl) (kind : ImportKind) :
    ofItem? kind decl.item = some { decl with kind := kind } := by
  have name : Text.words decl.name = [decl.name] :=
    Text.words_of_solid plain.name.word.nonempty plain.name.word.solid
  have start : decl.name.dropWhile (· == '\\') = decl.name :=
    Text.dropWhile_beq_eq_self plain.name.start
  unfold item asPart
  cases other : decl.asName with
  | none => simp only [List.append_nil, ofItem?, name, start]
  | some asName =>
      have word := plain.asName asName other
      have words : Text.words (decl.name ++ ' ' :: ("as".toList ++ ' ' :: asName)) =
          [decl.name, "as".toList, asName] := by
        rw [Text.words_append_cons (by decide), Text.words_append_cons (by decide), name,
          Text.words_of_solid word.nonempty word.solid]
        rfl
      change ofItem? kind (decl.name ++ ' ' :: ("as".toList ++ ' ' :: asName)) = _
      rw [ofItem?, words]
      simp only [start, if_pos (by decide : isAsKeyword "as".toList)]

/-! ## Listings -/

theorem listing_cons_cons (item next : Text) (rest : List Text) :
    listing (item :: next :: rest) = item ++ ", ".toList ++ listing (next :: rest) := by
  rw [listing, List.intercalate_cons_cons]
  rfl

/-- A listing starts with its first item, and a comma may follow. -/
theorem exists_listing_cons (item : Text) (rest : List Text) :
    ∃ tail, listing (item :: rest) = item ++ tail ∧ ∀ c ∈ tail.head?, c = ',' := by
  cases rest with
  | nil => exact ⟨[], by simp [listing], by simp⟩
  | cons next rest =>
      refine ⟨", ".toList ++ listing (next :: rest), ?_, ?_⟩
      · rw [listing_cons_cons, List.append_assoc]
      · intro c first
        exact (Option.some.inj first).symm

theorem tight_listing {items : List Text} (each : ∀ item ∈ items, IsItem item) :
    Text.Tight (listing items) ∧ (items ≠ [] → listing items ≠ []) := by
  induction items with
  | nil => exact ⟨.of_solid (by simp [listing]), by simp⟩
  | cons item rest ih =>
      have first := each item List.mem_cons_self
      cases rest with
      | nil => simpa [listing] using And.intro first.tight first.nonempty
      | cons next rest =>
          have ⟨tight, nonempty⟩ := ih fun item member => each item (List.mem_cons_of_mem _ member)
          rw [listing_cons_cons]
          exact ⟨first.tight.append tight first.nonempty (nonempty (by simp)) _,
            by simp [first.nonempty]⟩

/-- The only separators of a listing are its commas. -/
theorem not_mem_listing {items : List Text} (each : ∀ item ∈ items, IsItem item) {c : Char}
    (separates : isSeparator c) (noComma : c ≠ ',') : c ∉ listing items := by
  induction items with
  | nil => simp [listing]
  | cons item rest ih =>
      have outside : c ∉ item := fun member => by
        simp [(each item List.mem_cons_self).whole c member] at separates
      cases rest with
      | nil => simpa [listing] using outside
      | cons next rest =>
          have others := ih fun item member => each item (List.mem_cons_of_mem _ member)
          have noBlank : c ≠ ' ' := by
            rintro rfl
            exact absurd separates (by decide)
          rw [listing_cons_cons]
          simp [outside, others, noComma, noBlank]

section Reading

variable {read : Text → Option Import} (nothing : read [] = none)
  (spaced : ∀ text, read (' ' :: text) = read text)

include spaced in
theorem filterMap_splitOn_space (text : Text) :
    ((' ' :: text).splitOn ',').filterMap read = (text.splitOn ',').filterMap read := by
  rw [List.splitOn_cons_eq_if_modifyHead, if_neg (by decide)]
  cases text.splitOn ',' with
  | nil => rfl
  | cons first rest => simp [List.filterMap_cons, spaced]

include nothing spaced in
/-- Reading between the commas of a listing reads its items. -/
theorem filterMap_splitOn_listing (comma : Bool) {items : List Text}
    (whole : ∀ item ∈ items, ',' ∉ item) :
    ((listing items ++ lastComma comma).splitOn ',').filterMap read = items.filterMap read := by
  induction items with
  | nil => cases comma <;> simp [listing, lastComma, List.splitOn_cons_eq_if_modifyHead, nothing]
  | cons item rest ih =>
      have first := whole item List.mem_cons_self
      cases rest with
      | nil =>
          cases comma with
          | false => simp [listing, lastComma, List.splitOn_eq_singleton first]
          | true =>
              simp [listing, lastComma, List.splitOn_append_cons_self_of_not_mem first,
                List.filterMap_cons, nothing]
      | cons next rest =>
          have split : (listing (item :: next :: rest) ++ lastComma comma).splitOn ',' =
              item :: (' ' :: (listing (next :: rest) ++ lastComma comma)).splitOn ',' := by
            rw [← List.splitOn_append_cons_self_of_not_mem first, listing_cons_cons]
            simp
          rw [split, List.filterMap_cons, filterMap_splitOn_space spaced,
            ih fun item member => whole item (List.mem_cons_of_mem _ member)]
          exact List.filterMap_cons.symm

include nothing spaced in
/-- Items that are read one by one are read in order from a listing. -/
theorem filterMap_listing_map (comma : Bool) (write : Import → Text) (result : Import → Import)
    {decls : List Import} (each : ∀ decl ∈ decls, IsItem (write decl))
    (reads : ∀ decl ∈ decls, read (write decl) = some (result decl)) :
    ((listing (decls.map write) ++ lastComma comma).splitOn ',').filterMap read =
      decls.map result := by
  rw [filterMap_splitOn_listing nothing spaced, List.filterMap_map, ← List.filterMap_eq_map]
  · exact List.filterMap_congr reads
  · intro item written inside
    obtain ⟨decl, member, rfl⟩ := List.mem_map.1 written
    exact absurd ((each decl member).whole ',' inside) (by decide)

end Reading

theorem ofList_listing (kind : ImportKind) {decls : List Import}
    (plain : ∀ decl ∈ decls, Plain decl ∧ decl.kind = kind) :
    ofList kind (listing (decls.map item)) = decls := by
  let read (text : Text) := ofItem? kind (Text.trim text)
  have spaced (text : Text) : read (' ' :: text) = read text := by
    simp only [read, Text.trim_cons (by decide : isBlank ' ')]
  have reads : ∀ decl ∈ decls, read decl.item = some (id decl) := by
    intro decl member
    obtain ⟨isPlain, rfl⟩ := plain decl member
    simp only [read, isPlain.isItem.tight.trim, ofItem?_item isPlain, id]
  have all := filterMap_listing_map rfl spaced false item id
    (fun decl member => (plain decl member).1.isItem) reads
  rwa [lastComma, if_neg Bool.false_ne_true, List.append_nil, List.map_id] at all

theorem Plain.isItem_kindItem {decl : Import} (plain : Plain decl) : IsItem decl.kindItem :=
  plain.isItem.keyword_append decl.kind

theorem splitKind_kindItem {decl : Import} (plain : Plain decl) (kind : ImportKind) :
    splitKind (Text.trim decl.kindItem) kind = (ownKind decl.kind kind, decl.item) := by
  have ends : EndsName [] := by simp [EndsName]
  have free : KeywordFree decl.item := by simpa using plain.keywordFree ends
  rw [plain.isItem_kindItem.tight.trim, kindItem]
  exact splitKind_keyword decl.kind kind plain.isItem.tight.start free

theorem ofGroup_listing (kind : ImportKind) {front : Text} (plainFront : IsPlainName front)
    {items : List Import} (plain : ∀ decl ∈ items, Plain decl) (comma : Bool) :
    ofGroup kind (front ++ ['\\']) (listing (items.map kindItem) ++ lastComma comma ++ ['}']) =
      items.map (inGroup kind front) := by
  have isItem (decl : Import) (member : decl ∈ items) : IsItem decl.kindItem :=
    (plain decl member).isItem_kindItem
  -- The front part loses its backslash and the listing its brace.
  have outer : Text.dropEndWhile (· == '\\') (Text.trim (front ++ ['\\'])) = front := by
    have solid : ∀ c ∈ front ++ ['\\'], isBlank c = false :=
      List.forall_mem_append.2 ⟨plainFront.word.solid, Text.forall_mem_of_all rfl⟩
    rw [(Text.Tight.of_solid solid).trim, Text.dropEndWhile_beq_concat plainFront.stop]
  have absent : '}' ∉ listing (items.map kindItem) ++ lastComma comma := by
    refine List.not_mem_append (not_mem_listing ?_ rfl (by decide)) (by cases comma <;> decide)
    simpa using isItem
  have inner := Text.dropEndWhile_beq_concat fun last => absent (List.mem_of_getLast? last)
  rw [ofGroup, outer, Text.trimEnd_concat (by decide), inner]
  refine filterMap_listing_map rfl (fun text => ?_) comma kindItem (inGroup kind front) isItem ?_
  · rw [Text.trim_cons (by decide)]
  · intro decl member
    simp only [splitKind_kindItem (plain decl member), ofItem?_item (plain decl member),
      Option.map_some, qualify, Text.dropWhile_beq_eq_self plainFront.start]
    rfl

/-! ## Declarations -/

/-- Reading takes the frame off: what is left is a group if it has a brace, and else a list. -/
theorem ofDeclaration_declaration (kind : ImportKind) {body : Text} (tight : Text.Tight body)
    (nonempty : body ≠ []) (stop : body.getLast? ≠ some ';') (free : KeywordFree body) :
    (∀ brace inner, body.dropWhile (· != '{') = brace :: inner →
        ofDeclaration (declaration kind body) =
          ofGroup kind (body.takeWhile (· != '{')) inner) ∧
      (body.dropWhile (· != '{') = [] →
        ofDeclaration (declaration kind body) = ofList kind body) := by
  have use : Text.Tight "use".toList := .of_solid (Text.forall_mem_of_all rfl)
  have whole : Text.Tight ("use ".toList ++ kind.keyword ++ body ++ [';']) :=
    use.append (.of_solid (Text.forall_mem_of_all rfl)) (by decide) (by simp)
      (' ' :: kind.keyword ++ body)
  have framed : Text.Tight ("use ".toList ++ kind.keyword ++ body) :=
    use.append tight (by decide) nonempty (' ' :: kind.keyword)
  have opened : Text.dropEndWhile (· == ';') (Text.trim (declaration kind body)) =
      "use ".toList ++ kind.keyword ++ body := by
    refine (congrArg _ whole.trim).trans (Text.dropEndWhile_beq_concat ?_)
    rwa [List.getLast?_append_of_ne_nil _ nonempty]
  have used : afterKeyword? "use".toList ("use ".toList ++ kind.keyword ++ body) =
      some (kind.keyword ++ body) :=
    afterKeyword?_append "use".toList (tight_keyword_append kind tight nonempty).start
  have same : ownKind kind .classLike = kind := by cases kind <;> rfl
  constructor
  · intro brace inner found
    simp only [ofDeclaration, opened, framed.trimEnd, used,
      splitKind_keyword kind .classLike tight.start free, same, found]
  · intro absent
    simp only [ofDeclaration, opened, framed.trimEnd, used,
      splitKind_keyword kind .classLike tight.start free, same, absent]

theorem ofDeclaration_renderList (kind : ImportKind) {decls : List Import} (nonempty : decls ≠ [])
    (plain : ∀ decl ∈ decls, Plain decl ∧ decl.kind = kind) :
    ofDeclaration (renderList kind decls) = decls := by
  have each : ∀ text ∈ decls.map item, IsItem text :=
    List.forall_mem_map.2 fun decl member => (plain decl member).1.isItem
  have ⟨tight, filled⟩ := tight_listing each
  have stop : (listing (decls.map item)).getLast? ≠ some ';' := fun last =>
    not_mem_listing each rfl (by decide) (List.mem_of_getLast? last)
  have free : KeywordFree (listing (decls.map item)) := by
    obtain ⟨decl, rest, rfl⟩ := List.exists_cons_of_ne_nil nonempty
    obtain ⟨tail, split, comma⟩ := exists_listing_cons decl.item (rest.map item)
    rw [List.map_cons, split]
    exact (plain decl List.mem_cons_self).1.keywordFree fun c first => .inr (.inl (comma c first))
  have noBrace : (listing (decls.map item)).dropWhile (· != '{') = [] := by
    refine List.dropWhile_eq_nil_iff.2 fun c member => bne_iff_ne.2 ?_
    rintro rfl
    exact not_mem_listing each rfl (by decide) member
  have read := (ofDeclaration_declaration kind tight (filled (by simpa using nonempty)) stop free).2
  exact (read noBrace).trans (ofList_listing kind plain)

theorem ofDeclaration_render {decl : Import} (plain : Plain decl) :
    ofDeclaration decl.render = [decl] := by
  have alone : decl.render = renderList decl.kind [decl] := by
    rw [render_eq_declaration, renderList, List.map_singleton, listing, List.intercalate_singleton]
  rw [alone]
  exact ofDeclaration_renderList decl.kind (by simp) (by simpa using plain)

theorem ofDeclaration_renderGroup (kind : ImportKind) {front : Text}
    (plainFront : IsPlainName front) {items : List Import} (plain : ∀ decl ∈ items, Plain decl)
    (comma : Bool) :
    ofDeclaration (renderGroup kind front items comma) = items.map (inGroup kind front) := by
  have ahead : ∀ c ∈ front ++ ['\\'], c != '{' := by
    refine List.forall_mem_append.2 ⟨fun c member => bne_iff_ne.2 ?_, by simp⟩
    rintro rfl
    exact absurd (plainFront.word.whole _ member) (by decide)
  have inner := ofGroup_listing kind plainFront plain comma
  rw [renderGroup]
  generalize listing (items.map kindItem) ++ lastComma comma = listed at inner ⊢
  have tight : Text.Tight (front ++ ['\\'] ++ '{' :: (listed ++ ['}'])) := by
    have last : Text.Tight ['}'] := .of_solid (Text.forall_mem_of_all rfl)
    simpa using plainFront.word.isItem.tight.append last plainFront.word.nonempty (by simp)
      ('\\' :: '{' :: listed)
  have stop : (front ++ ['\\'] ++ '{' :: (listed ++ ['}'])).getLast? ≠ some ';' := by
    rw [← List.cons_append, ← List.append_assoc, List.getLast?_concat]
    decide
  have free : KeywordFree (front ++ ['\\'] ++ '{' :: (listed ++ ['}'])) := by
    rw [List.append_assoc]
    exact plainFront.keywordFree (by simp [EndsName])
  have read := (ofDeclaration_declaration kind tight (by simp) stop free).1
  rw [List.dropWhile_append_of_pos ahead, List.takeWhile_append_of_pos ahead] at read
  rw [read '{' (listed ++ ['}']) (by simp)]
  simpa using inner

/-! ## Writing out a group -/

theorem lastSegment_append (front name : Text) :
    lastSegment (front ++ ['\\'] ++ name) = lastSegment name := by
  have reversed : (front ++ ['\\'] ++ name).reverse = name.reverse ++ '\\' :: front.reverse := by
    simp
  rw [lastSegment, reversed, List.takeWhile_append]
  split
  next full =>
    -- Without a backslash of its own, the name ends at the one in front of it.
    have all : name.reverse.takeWhile (· != '\\') = name.reverse :=
      (List.takeWhile_prefix _).eq_of_length full
    simp [lastSegment, all]
  · rfl

theorem IsPlainName.append {front name : Text} (outer : IsPlainName front)
    (inner : IsPlainName name) : IsPlainName (front ++ ['\\'] ++ name) where
  word := {
    nonempty := by simp
    solid := List.forall_mem_append.2
      ⟨List.forall_mem_append.2 ⟨outer.word.solid, Text.forall_mem_of_all rfl⟩, inner.word.solid⟩
    whole := List.forall_mem_append.2
      ⟨List.forall_mem_append.2 ⟨outer.word.whole, Text.forall_mem_of_all rfl⟩, inner.word.whole⟩ }
  start := by
    rw [List.append_assoc, List.head?_append_of_ne_nil _ outer.word.nonempty]
    exact outer.start
  stop := by
    rw [List.getLast?_append_of_ne_nil _ inner.word.nonempty]
    exact inner.stop
  segment := by
    rw [lastSegment_append]
    exact inner.segment

theorem Plain.inGroup {decl : Import} (plain : Plain decl) (kind : ImportKind) {front : Text}
    (plainFront : IsPlainName front) : Plain (inGroup kind front decl) :=
  ⟨plainFront.append plain.name, plain.asName⟩

/-- Reading inverts writing. A plain import written on its own is read as itself, a comma list as
its imports in order, and a group as what its items are read as when they are written out with the
front part and their own kind, or else the kind of the group. -/
theorem ofDeclaration_inverts_writing :
    (∀ decl : Import, Plain decl → ofDeclaration decl.render = [decl]) ∧
    (∀ (kind : ImportKind) (decls : List Import), decls ≠ [] →
      (∀ decl ∈ decls, Plain decl ∧ decl.kind = kind) →
      ofDeclaration (renderList kind decls) = decls) ∧
    (∀ (kind : ImportKind) (front : Text) (items : List Import) (comma : Bool),
      IsPlainName front → (∀ decl ∈ items, Plain decl) →
      ofDeclaration (renderGroup kind front items comma) =
          items.flatMap (fun decl => ofDeclaration (inGroup kind front decl).render) ∧
        ofDeclaration (renderGroup kind front items comma) = items.map (inGroup kind front)) := by
  refine ⟨fun decl => ofDeclaration_render, fun kind decls => ofDeclaration_renderList kind, ?_⟩
  intro kind front items comma plainFront plain
  have group := ofDeclaration_renderGroup kind plainFront plain comma
  refine ⟨?_, group⟩
  rw [group, List.map_eq_flatMap]
  refine (List.flatMap_congr fun decl member => ?_).symm
  exact ofDeclaration_render ((plain decl member).inGroup kind plainFront)

/-- A constant and a renamed function in a group of functions with a comma at its end. -/
theorem ofDeclaration_of_mixed_group :
    let maximum : Import := ⟨.constant, "Sub\\MAX".toList, none⟩
    let run : Import := ⟨.classLike, "run".toList, some "go".toList⟩
    let walk : Import := ⟨.classLike, "walk".toList, none⟩
    (Plain maximum ∧ ofDeclaration "use const Sub\\MAX;".toList = [maximum]) ∧
    ((∀ decl ∈ [run, walk], Plain decl ∧ decl.kind = .classLike) ∧
      ofDeclaration "use run as go, walk;".toList = [run, walk]) ∧
    ((∀ decl ∈ [run, maximum], Plain decl) ∧ IsPlainName "App\\Tools".toList ∧
      ofDeclaration "use function App\\Tools\\\x7brun as go, const Sub\\MAX,\x7d;".toList =
        [⟨.function, "App\\Tools\\run".toList, some "go".toList⟩,
          ⟨.constant, "App\\Tools\\Sub\\MAX".toList, none⟩]) := by
  intro maximum run walk
  have ⟨single, list, group⟩ := ofDeclaration_inverts_writing
  have alone : maximum.render = "use const Sub\\MAX;".toList := by decide +kernel
  have listed : renderList .classLike [run, walk] = "use run as go, walk;".toList := by
    decide +kernel
  have grouped : renderGroup .function "App\\Tools".toList [run, maximum] true =
      "use function App\\Tools\\\x7brun as go, const Sub\\MAX,\x7d;".toList := by
    decide +kernel
  rw [← alone, ← listed, ← grouped]
  refine ⟨⟨by decide, single maximum (by decide)⟩, ⟨by decide, ?_⟩, by decide, by decide, ?_⟩
  · exact list .classLike [run, walk] (by decide) (by decide)
  · have ⟨_, read⟩ :=
      group .function "App\\Tools".toList [run, maximum] true (by decide) (by decide)
    exact read.trans (by decide +kernel)

end Import

end TagLift
