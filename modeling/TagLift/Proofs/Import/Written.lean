import TagLift.Proofs.Import.RoundTrip

/-!
# Declarations as people write them

A `use` declaration with white space wherever it may stand and with each keyword in some letter
case. A declaration names one import, a comma list of imports or a group; what it says does not
depend on white space or letter case. Reading skips the white space, so it depends on the first
words only: whether the declaration starts with `use`, and whether it and the items of a group
start with the keyword of a kind.
-/

namespace TagLift

namespace Import

namespace Written

/-! ## Parts of a declaration -/

/-- White space where none is needed. -/
structure Blanks where
  text : Text
  blank : text.isAllBlank

/-- White space that keeps two words apart. -/
structure Break extends Blanks where
  nonempty : text ≠ []

/-- A keyword in some letter case. -/
structure Spelling (keyword : Text) where
  text : Text
  spells : text.map Char.toLower = keyword

/-- The keywords of the kinds that have one. -/
inductive KindKeyword where
  | function
  | constant

namespace KindKeyword

/-- The kind that a keyword stands for. -/
def kind : KindKeyword → ImportKind
  | .function => .function
  | .constant => .constant

/-- The keyword in lower case. -/
def word : KindKeyword → Text
  | .function => "function".toList
  | .constant => "const".toList

end KindKeyword

/-- The keyword of a kind in front of what it is about. -/
structure KindMark where
  keyword : KindKeyword
  spelling : Spelling keyword.word
  gap : Break

/-- A word that is not the keyword of a kind in any letter case. -/
structure IsName (name : Text) : Prop where
  word : IsWord name
  free : name.map Char.toLower ∉ kindKeywords

/-- The other name of an import, behind the word `as`. -/
structure OtherName where
  before : Break
  spelling : Spelling "as".toList
  after : Break
  name : Text
  isWord : IsWord name

/-- A name with an optional other name. -/
structure Item where
  name : Text
  isName : IsName name
  other : Option OtherName

/-- An item of a group, which may have a kind of its own. -/
structure GroupItem where
  own : Option KindMark
  item : Item

/-- A comma with the white space around it. -/
structure Comma where
  before : Blanks
  after : Blanks

/-- One or more items with commas between them. -/
structure Listing (α : Type) where
  first : α
  rest : List (Comma × α)

/-- What stands behind the last item of a group: a comma may still follow. -/
structure Ending where
  before : Blanks
  comma : Option Blanks

/-- A group: the front part that its items share, and the items in braces. -/
structure Group where
  front : Text
  isFront : IsName front
  before : Blanks
  lead : Blanks
  items : Listing GroupItem
  ending : Ending

/-- What a declaration names, a comma list of one or more items or a group. -/
inductive Body where
  | ofList (items : Listing Item)
  | ofGroup (group : Group)

/-- A whole declaration, with or without its semicolon. -/
structure Declaration where
  lead : Blanks
  spelling : Spelling "use".toList
  gap : Break
  kind : Option KindMark
  body : Body
  before : Blanks
  semicolon : Bool
  trail : Blanks

/-! ## What is written -/

def KindMark.text (mark : KindMark) : Text :=
  mark.spelling.text ++ mark.gap.text

/-- The text of a keyword that may be absent. -/
def markText (mark : Option KindMark) : Text :=
  mark.elim [] KindMark.text

def OtherName.text (other : OtherName) : Text :=
  other.before.text ++ (other.spelling.text ++ (other.after.text ++ other.name))

def Item.text (item : Item) : Text :=
  item.name ++ item.other.elim [] OtherName.text

def GroupItem.text (item : GroupItem) : Text :=
  markText item.own ++ item.item.text

def Comma.text (comma : Comma) : Text :=
  comma.before.text ++ ',' :: comma.after.text

namespace Listing

variable {α β : Type}

/-- The items without the commas. -/
def items (listing : Listing α) : List α :=
  listing.first :: listing.rest.map Prod.snd

/-- The listing with each item replaced, between the same commas. -/
def map (f : α → β) (listing : Listing α) : Listing β :=
  ⟨f listing.first, listing.rest.map fun next => (next.1, f next.2)⟩

/-- The text of a listing of texts. -/
def text (listing : Listing Text) : Text :=
  listing.first ++ listing.rest.flatMap fun next => next.1.text ++ next.2

@[simp] theorem items_map (f : α → β) (listing : Listing α) :
    (listing.map f).items = listing.items.map f := by
  simp [items, map]

theorem text_cons (first next : Text) (comma : Comma) (rest : List (Comma × Text)) :
    text ⟨first, (comma, next) :: rest⟩ =
      first ++ (comma.before.text ++ ',' :: (comma.after.text ++ text ⟨next, rest⟩)) := by
  simp [text, Comma.text]

end Listing

def Ending.text (ending : Ending) : Text :=
  ending.before.text ++ ending.comma.elim [] (',' :: ·.text)

namespace Group

/-- The text up to the opening brace. -/
def outer (group : Group) : Text :=
  group.front ++ group.before.text

/-- The text between the braces. -/
def inner (group : Group) : Text :=
  group.lead.text ++ ((group.items.map GroupItem.text).text ++ group.ending.text)

def text (group : Group) : Text :=
  group.outer ++ '{' :: (group.inner ++ ['}'])

end Group

def Body.text : Body → Text
  | .ofList items => (items.map Item.text).text
  | .ofGroup group => group.text

/-- The text behind `use`, without what ends the declaration. -/
def Declaration.content (decl : Declaration) : Text :=
  markText decl.kind ++ decl.body.text

def Declaration.text (decl : Declaration) : Text :=
  decl.lead.text ++ (decl.spelling.text ++ (decl.gap.text ++ (decl.content ++
    (decl.before.text ++ ((if decl.semicolon then [';'] else []) ++ decl.trail.text)))))

/-! ## What is meant -/

/-- The kind that a keyword in front gives, or the given one. -/
def markKind (mark : Option KindMark) (kind : ImportKind) : ImportKind :=
  mark.elim kind (·.keyword.kind)

/-- The import that an item names. -/
def Item.toImport (item : Item) (kind : ImportKind) : Import :=
  ⟨kind, item.name.dropWhile (· == '\\'), item.other.map OtherName.name⟩

/-- The import that an item names in a group with this front part. -/
def GroupItem.toImport (item : GroupItem) (kind : ImportKind) (front : Text) : Import :=
  qualify front (item.item.toImport (markKind item.own kind))

def Body.imports (kind : ImportKind) : Body → List Import
  | .ofList items => items.items.map (·.toImport kind)
  | .ofGroup group =>
      group.items.items.map (·.toImport kind (Text.dropEndWhile (· == '\\') group.front))

/-- The imports that a declaration names. -/
def Declaration.imports (decl : Declaration) : List Import :=
  decl.body.imports (markKind decl.kind .classLike)

/-! ## First words -/

theorem toLower_eq_self_of_isBlank {c : Char} (blank : isBlank c) : c.toLower = c := by
  simp only [isBlank, Bool.or_eq_true, Bool.and_eq_true, decide_eq_true_eq, beq_iff_eq] at blank
  refine dif_neg ?_
  rintro ⟨low, high⟩
  have lowest : 65 ≤ c.toNat := low
  have highest : c.toNat ≤ 90 := high
  omega

namespace Spelling

variable {keyword : Text} (spelling : Spelling keyword)

/-- A character that has no other letter case is in a spelling only if it is in the keyword. -/
theorem notMem {c : Char} (one : c.toLower = c) (absent : c ∉ keyword) : c ∉ spelling.text := by
  intro member
  have lowered : c.toLower ∈ spelling.text.map Char.toLower := List.mem_map_of_mem member
  rw [one, spelling.spells] at lowered
  exact absent lowered

theorem solid (solid : ∀ c ∈ keyword, isBlank c = false) :
    ∀ c ∈ spelling.text, isBlank c = false := by
  intro c member
  by_contra blank
  rw [Bool.not_eq_false] at blank
  refine spelling.notMem (toLower_eq_self_of_isBlank blank) ?_ member
  intro inside
  simp [solid c inside] at blank

theorem isWord (word : IsWord keyword) : IsWord spelling.text where
  nonempty := by
    intro empty
    exact word.nonempty (by rw [← spelling.spells, empty, List.map_nil])
  solid := spelling.solid word.solid
  whole := by
    intro c member
    by_contra separates
    rw [Bool.not_eq_false] at separates
    refine spelling.notMem ?_ (fun inside => ?_) member
    · simp only [isSeparator, Bool.or_eq_true, beq_iff_eq] at separates
      rcases separates with ((rfl | rfl) | rfl) | rfl <;> rfl
    · simp [word.whole c inside] at separates

end Spelling

theorem Break.exists_cons (gap : Break) :
    ∃ c rest, gap.text = c :: rest ∧ isBlank c ∧ Text.isAllBlank rest := by
  obtain ⟨c, rest, start⟩ := List.exists_cons_of_ne_nil gap.nonempty
  have blank := gap.blank
  rw [start, Text.isAllBlank, List.all_cons, Bool.and_eq_true] at blank
  exact ⟨c, rest, start, blank⟩

/-- The first word of a text ends at the first white space. -/
theorem takeWhile_word {word : Text} (solid : ∀ c ∈ word, isBlank c = false) (gap : Break)
    (rest : Text) : (word ++ (gap.text ++ rest)).takeWhile (!isBlank ·) = word := by
  obtain ⟨c, others, start, blank, -⟩ := gap.exists_cons
  rw [List.takeWhile_append_of_pos (by simpa using solid), start]
  simp [blank]

theorem afterKeyword?_break (keyword : Text) (gap : Break) {rest : Text}
    (start : ∀ c ∈ rest.head?, isBlank c = false) :
    afterKeyword? keyword (keyword ++ (gap.text ++ rest)) = some rest := by
  obtain ⟨c, others, begins, blank, blanks⟩ := gap.exists_cons
  rw [begins]
  exact afterKeyword?_gap keyword blank blanks start

/-- A keyword is read in lower case only. -/
theorem afterKeyword?_spelling {keyword : Text} (solid : ∀ c ∈ keyword, isBlank c = false)
    (spelling : Spelling keyword) (gap : Break) {rest : Text}
    (start : ∀ c ∈ rest.head?, isBlank c = false) :
    afterKeyword? keyword (spelling.text ++ (gap.text ++ rest)) =
      if spelling.text = keyword then some rest else none := by
  split
  next lower => rw [lower, afterKeyword?_break keyword gap start]
  next other =>
    rw [Option.eq_none_iff_forall_ne_some]
    intro behind read
    have first := takeWhile_of_afterKeyword? solid read
    rw [takeWhile_word (spelling.solid solid)] at first
    exact other first

theorem toLower_of_mem_kindKeywords :
    ∀ keyword ∈ kindKeywords, keyword.map Char.toLower = keyword := by
  decide

theorem whole_of_mem_kindKeywords {keyword : Text} (member : keyword ∈ kindKeywords) :
    ∀ c ∈ keyword, isSeparator c = false := by
  refine Text.forall_mem_of_all ?_
  revert keyword
  decide

/-- No keyword of a kind goes on behind a name that ends here. -/
theorem IsName.keywordFree {name rest : Text} (isName : IsName name)
    (ends : ∀ c ∈ rest.head?, isBlank c ∨ isSeparator c) : KeywordFree (name ++ rest) := by
  rw [KeywordFree, List.takeWhile_append_of_pos (by simpa using isName.word.solid)]
  intro member
  have nothing : rest.takeWhile (!isBlank ·) = [] := by
    cases rest with
    | nil => rfl
    | cons c others =>
        by_cases blank : isBlank c
        · simp [blank]
        · have separates := (ends c rfl).resolve_left blank
          have inside : c ∈ name ++ (c :: others).takeWhile (!isBlank ·) := by simp [blank]
          simp [whole_of_mem_kindKeywords member c inside] at separates
  rw [nothing, List.append_nil] at member
  exact isName.free ((toLower_of_mem_kindKeywords name member).symm ▸ member)

namespace KindMark

variable (mark : KindMark)

/-- Whether the keyword is in lower case. -/
def IsLower : Prop :=
  mark.spelling.text = mark.keyword.word

instance : Decidable mark.IsLower :=
  inferInstanceAs (Decidable (mark.spelling.text = mark.keyword.word))

theorem isWord_spelling : IsWord mark.spelling.text :=
  mark.spelling.isWord (by cases mark.keyword <;> decide)

theorem text_append (rest : Text) :
    mark.text ++ rest = mark.spelling.text ++ (mark.gap.text ++ rest) :=
  List.append_assoc _ _ _

theorem keywordFree_of_not_isLower (other : ¬mark.IsLower) (rest : Text) :
    KeywordFree (mark.text ++ rest) := by
  rw [KeywordFree, text_append, takeWhile_word mark.isWord_spelling.solid]
  intro member
  -- A keyword of a kind that spells this one is this one.
  exact other ((toLower_of_mem_kindKeywords _ member).symm.trans mark.spelling.spells)

theorem splitKind_of_isLower (lower : mark.IsLower) (kind : ImportKind) {rest : Text}
    (start : ∀ c ∈ rest.head?, isBlank c = false) :
    splitKind (mark.text ++ rest) kind = (mark.keyword.kind, rest) := by
  rw [text_append, lower]
  cases mark.keyword with
  | function =>
      change splitKind ("function".toList ++ (mark.gap.text ++ rest)) kind = (.function, rest)
      rw [splitKind, afterKeyword?_break "function".toList mark.gap start]
  | constant =>
      change splitKind ("const".toList ++ (mark.gap.text ++ rest)) kind = (.constant, rest)
      have notFunction :
          afterKeyword? "function".toList ("const".toList ++ (mark.gap.text ++ rest)) = none := rfl
      rw [splitKind, notFunction, afterKeyword?_break "const".toList mark.gap start]

end KindMark

/-- Whether the keyword in front, if there is one, is in lower case. -/
def LowerMark (mark : Option KindMark) : Prop :=
  ∀ own ∈ mark, own.IsLower

instance (mark : Option KindMark) : Decidable (LowerMark mark) :=
  inferInstanceAs (Decidable (∀ own ∈ mark, own.IsLower))

theorem exists_of_not_lowerMark {mark : Option KindMark} (other : ¬LowerMark mark) :
    ∃ own, mark = some own ∧ ¬own.IsLower := by
  cases mark with
  | none => simp [LowerMark] at other
  | some own => exact ⟨own, rfl, by simpa [LowerMark] using other⟩

/-- The kind in front of a text is read if its keyword is in lower case, and else the keyword
stays part of the text. -/
theorem splitKind_mark (mark : Option KindMark) (kind : ImportKind) {rest : Text}
    (start : ∀ c ∈ rest.head?, isBlank c = false) (free : KeywordFree rest) :
    splitKind (markText mark ++ rest) kind =
      if LowerMark mark then (markKind mark kind, rest) else (kind, markText mark ++ rest) := by
  split
  next lower =>
    cases mark with
    | none => exact splitKind_of_keywordFree free kind
    | some own => exact own.splitKind_of_isLower (lower own rfl) kind start
  next other =>
    obtain ⟨own, rfl, notLower⟩ := exists_of_not_lowerMark other
    exact splitKind_of_keywordFree (own.keywordFree_of_not_isLower notLower rest) kind

/-! ## Items -/

/-- White space holds no separator. -/
theorem Blanks.whole (blanks : Blanks) : ∀ c ∈ blanks.text, isSeparator c = false := by
  intro c member
  by_contra separates
  have blank := List.all_eq_true.1 blanks.blank c member
  simp only [Bool.not_eq_false, isSeparator, Bool.or_eq_true, beq_iff_eq] at separates
  rcases separates with ((rfl | rfl) | rfl) | rfl <;> exact absurd blank (by decide)

namespace Item

variable (item : Item)

theorem isItem : IsItem item.text := by
  unfold Item.text
  cases item.other with
  | none => simpa using item.isName.word.isItem
  | some other =>
      have keyword := (other.spelling.isWord (by decide)).whole
      simpa [OtherName.text] using item.isName.word.isItem.append other.isWord.isItem
        (List.forall_mem_append.2 ⟨other.before.whole,
          List.forall_mem_append.2 ⟨keyword, other.after.whole⟩⟩)

theorem keywordFree {rest : Text} (ends : ∀ c ∈ rest.head?, isBlank c ∨ isSeparator c) :
    KeywordFree (item.text ++ rest) := by
  rw [Item.text, List.append_assoc]
  refine item.isName.keywordFree ?_
  cases item.other with
  | none => exact ends
  | some other =>
      intro c first
      have inside : c ∈ other.before.text := by
        refine List.mem_of_mem_head? ?_
        simpa [OtherName.text, List.head?_append_of_ne_nil _ other.before.nonempty] using first
      exact .inl (List.all_eq_true.1 other.before.blank c inside)

theorem words_text : Text.words item.text =
    item.name :: item.other.elim [] fun other => [other.spelling.text, other.name] := by
  have name := Text.words_of_solid item.isName.word.nonempty item.isName.word.solid
  unfold Item.text
  cases item.other with
  | none => simpa using name
  | some other =>
      have keyword := other.spelling.isWord (by decide)
      simp only [Option.elim_some, OtherName.text,
        Text.words_append_gap other.before.nonempty other.before.blank,
        Text.words_append_gap other.after.nonempty other.after.blank, name,
        Text.words_of_solid keyword.nonempty keyword.solid,
        Text.words_of_solid other.isWord.nonempty other.isWord.solid]
      rfl

/-- An item is read in any letter case of `as`. -/
theorem ofItem?_text (kind : ImportKind) : ofItem? kind item.text = some (item.toImport kind) := by
  rw [ofItem?, words_text, toImport]
  cases item.other with
  | none => rfl
  | some other =>
      have isAs : isAsKeyword other.spelling.text := beq_iff_eq.2 other.spelling.spells
      simp only [Option.elim_some, if_pos isAs, Option.map_some]

end Item

namespace KindMark

variable (mark : KindMark) (item : Item)

theorem isItem : IsItem (mark.text ++ item.text) :=
  mark.isWord_spelling.isItem.append item.isItem mark.gap.whole

/-- An item behind a keyword that was not read has too many words. -/
theorem ofItem?_text_append (kind : ImportKind) : ofItem? kind (mark.text ++ item.text) = none := by
  have words : Text.words (mark.text ++ item.text) =
      mark.spelling.text :: Text.words item.text := by
    rw [text_append, Text.words_append_gap mark.gap.nonempty mark.gap.blank,
      Text.words_of_solid mark.isWord_spelling.nonempty mark.isWord_spelling.solid]
    rfl
  rw [ofItem?, words, item.words_text]
  cases item.other <;> rfl

end KindMark

namespace GroupItem

variable (item : GroupItem)

theorem isItem : IsItem item.text := by
  unfold GroupItem.text
  cases item.own with
  | none => exact item.item.isItem
  | some own => exact own.isItem item.item

/-- An item of a group is read if its own kind is, and else it is left out. -/
theorem read_text (kind : ImportKind) (front : Text) :
    (ofItem? (splitKind item.text kind).1 (splitKind item.text kind).2).map (qualify front) =
      if LowerMark item.own then some (item.toImport kind front) else none := by
  have ends : ∀ c ∈ ([] : Text).head?, isBlank c ∨ isSeparator c := by simp
  have free : KeywordFree item.item.text := by simpa using item.item.keywordFree ends
  rw [GroupItem.text, splitKind_mark item.own kind item.item.isItem.tight.start free]
  split
  · rw [item.item.ofItem?_text]
    rfl
  next other =>
    obtain ⟨own, isOwn, -⟩ := exists_of_not_lowerMark other
    rw [isOwn]
    exact congrArg _ (own.ofItem?_text_append item.item kind)

end GroupItem

/-! ## Listings -/

namespace Listing

variable {listing : Listing Text}

theorem isTight_text (each : ∀ item ∈ listing.items, IsItem item) :
    Text.Tight listing.text ∧ listing.text ≠ [] := by
  obtain ⟨first, rest⟩ := listing
  induction rest generalizing first with
  | nil =>
      have only := each first List.mem_cons_self
      simpa [text] using And.intro only.tight only.nonempty
  | cons next rest ih =>
      obtain ⟨comma, next⟩ := next
      have start := each first List.mem_cons_self
      have ⟨tight, nonempty⟩ := ih next fun item member => each item (List.mem_cons_of_mem _ member)
      have whole := start.tight.append tight start.nonempty nonempty comma.text
      rw [text_cons]
      exact ⟨by simpa [Comma.text] using whole, by simp⟩

/-- The only separators of a listing are its commas. -/
theorem notMem_text (each : ∀ item ∈ listing.items, IsItem item) {c : Char}
    (separates : isSeparator c) (noComma : c ≠ ',') : c ∉ listing.text := by
  obtain ⟨first, rest⟩ := listing
  have outside {part : Text} (whole : ∀ c ∈ part, isSeparator c = false) : c ∉ part := by
    intro member
    simp [whole c member] at separates
  induction rest generalizing first with
  | nil => simpa [text] using outside (each first List.mem_cons_self).whole
  | cons next rest ih =>
      obtain ⟨comma, next⟩ := next
      have others := ih next fun item member => each item (List.mem_cons_of_mem _ member)
      rw [text_cons]
      simp [outside (each first List.mem_cons_self).whole, outside comma.before.whole,
        outside comma.after.whole, others, noComma]

/-- White space around an item is trimmed, and no comma comes in with it. -/
theorem trim_spaced {item : Text} (isItem : IsItem item) (lead after : Blanks) :
    Text.trim (lead.text ++ (item ++ after.text)) = item ∧
      ',' ∉ lead.text ++ (item ++ after.text) := by
  have noComma {part : Text} (whole : ∀ c ∈ part, isSeparator c = false) : ',' ∉ part :=
    fun member => absurd (whole _ member) (by decide)
  rw [Text.trim_blank_append lead.blank, Text.trim_append_blank after.blank, isItem.tight.trim]
  simp [noComma lead.whole, noComma isItem.whole, noComma after.whole]

/-- Reading between the commas reads the items, whatever white space is around them. -/
theorem filterMap_splitOn_text {read : Text → Option Import} (nothing : read [] = none)
    (each : ∀ item ∈ listing.items, IsItem item) (lead : Blanks) (ending : Ending) :
    ((lead.text ++ (listing.text ++ ending.text)).splitOn ',').filterMap
        (fun part => read (Text.trim part)) = listing.items.filterMap read := by
  obtain ⟨first, rest⟩ := listing
  have item := each first List.mem_cons_self
  induction rest generalizing first lead with
  | nil =>
      have ⟨trimmed, whole⟩ := trim_spaced item lead ending.before
      have only : items ⟨first, []⟩ = [first] := rfl
      simp only [text, List.flatMap_nil, List.append_nil, Ending.text, only]
      cases ending.comma with
      | none =>
          rw [Option.elim_none, List.append_nil, List.splitOn_eq_singleton whole]
          simp only [List.filterMap_cons, trimmed, List.filterMap_nil]
      | some after =>
          have blank : Text.trim after.text = [] := Text.trim_append_blank after.blank []
          have last : ',' ∉ after.text := fun member => absurd (after.whole _ member) (by decide)
          have split := List.splitOn_append_cons_self_of_not_mem whole after.text
          simp only [List.append_assoc] at split
          rw [Option.elim_some, split, List.splitOn_eq_singleton last]
          simp only [List.filterMap_cons, trimmed, blank, nothing, List.filterMap_nil]
  | cons next rest ih =>
      obtain ⟨comma, next⟩ := next
      have later : ∀ item ∈ items ⟨next, rest⟩, IsItem item := fun item member =>
        each item (List.mem_cons_of_mem _ member)
      have ⟨trimmed, whole⟩ := trim_spaced item lead comma.before
      have split := List.splitOn_append_cons_self_of_not_mem whole
        (comma.after.text ++ (text ⟨next, rest⟩ ++ ending.text))
      simp only [List.append_assoc] at split
      simp only [text_cons, List.append_assoc, List.cons_append]
      rw [split, List.filterMap_cons, trimmed,
        ih comma.after next later (later next List.mem_cons_self)]
      exact List.filterMap_cons.symm

end Listing

/-! ## Bodies -/

/-- What a text between `use` and the end of a declaration is like. -/
structure IsBody (text : Text) : Prop where
  nonempty : text ≠ []
  tight : Text.Tight text
  stop : text.getLast? ≠ some ';'
  free : KeywordFree text

/-- White space and a separator end a name, and so does the separator alone. -/
theorem Blanks.head_append (blanks : Blanks) {separator : Char} (separates : isSeparator separator)
    (rest : Text) :
    ∀ c ∈ (blanks.text ++ separator :: rest).head?, isBlank c ∨ isSeparator c := by
  intro c first
  by_cases empty : blanks.text = []
  · rw [empty, List.nil_append] at first
    exact .inr (Option.some.inj first ▸ separates)
  · rw [List.head?_append_of_ne_nil _ empty] at first
    exact .inl (List.all_eq_true.1 blanks.blank c (List.mem_of_mem_head? first))

theorem isItem_of_mem_items {α : Type} {write : α → Text} (isItem : ∀ item, IsItem (write item))
    (listing : Listing α) : ∀ text ∈ (listing.map write).items, IsItem text := by
  simpa using fun item _ => isItem item

theorem isBody_list (items : Listing Item) : IsBody (items.map Item.text).text := by
  have each := isItem_of_mem_items Item.isItem items
  have ⟨tight, nonempty⟩ := Listing.isTight_text each
  refine ⟨nonempty, tight, fun last => ?_, ?_⟩
  · exact Listing.notMem_text each rfl (by decide) (List.mem_of_getLast? last)
  · obtain ⟨first, rest⟩ := items
    refine first.keywordFree ?_
    cases rest with
    | nil => simp [Listing.map]
    | cons next rest =>
        simp only [Listing.map, List.map_cons, List.flatMap_cons, Comma.text, List.append_assoc,
          List.cons_append]
        exact next.1.before.head_append rfl _

namespace Group

variable (group : Group)

theorem isBody : IsBody group.text where
  nonempty := by simp [text]
  tight := by
    have close : Text.Tight ['}'] := .of_solid (Text.forall_mem_of_all rfl)
    simpa [text, outer] using group.isFront.word.isItem.tight.append close
      group.isFront.word.nonempty (by simp) (group.before.text ++ '{' :: group.inner)
  stop := by
    rw [text, ← List.cons_append, ← List.append_assoc, List.getLast?_concat]
    decide
  free := by
    rw [text, outer, List.append_assoc]
    exact group.isFront.keywordFree (group.before.head_append rfl _)

theorem brace_notMem_outer : '{' ∉ group.outer := by
  refine List.not_mem_append (fun member => ?_) (fun member => ?_)
  · exact absurd (group.isFront.word.whole _ member) (by decide)
  · exact absurd (group.before.whole _ member) (by decide)

theorem brace_notMem_inner : '}' ∉ group.inner := by
  have outside (blanks : Blanks) : '}' ∉ blanks.text := fun member =>
    absurd (blanks.whole _ member) (by decide)
  have items : '}' ∉ (group.items.map GroupItem.text).text :=
    Listing.notMem_text (isItem_of_mem_items GroupItem.isItem group.items) rfl (by decide)
  simp only [inner, Ending.text]
  cases group.ending.comma <;> simp [outside, items]

end Group

theorem Body.isBody (body : Body) : IsBody body.text := by
  cases body with
  | ofList items => exact isBody_list items
  | ofGroup group => exact group.isBody

theorem ofList_listing_text (kind : ImportKind) {listing : Listing Text}
    (each : ∀ item ∈ listing.items, IsItem item) :
    ofList kind listing.text = listing.items.filterMap (ofItem? kind) := by
  have nothing : ofItem? kind [] = none := rfl
  have all := Listing.filterMap_splitOn_text nothing each ⟨[], rfl⟩ ⟨⟨[], rfl⟩, none⟩
  rw [ofList]
  simpa [Ending.text] using all

theorem ofList_items (kind : ImportKind) (items : Listing Item) :
    ofList kind (items.map Item.text).text = items.items.map (·.toImport kind) := by
  rw [ofList_listing_text kind (isItem_of_mem_items Item.isItem items), Listing.items_map,
    List.filterMap_map, ← List.filterMap_eq_map]
  exact List.filterMap_congr fun item _ => item.ofItem?_text kind

/-- The first item of a list is left out if a keyword that was not read stands before it. -/
theorem ofList_mark_append (kind : ImportKind) (mark : KindMark) (items : Listing Item) :
    ofList kind (mark.text ++ (items.map Item.text).text) =
      items.items.tail.map (·.toImport kind) := by
  let marked : Listing Text := ⟨mark.text ++ items.first.text, (items.map Item.text).rest⟩
  have whole : mark.text ++ (items.map Item.text).text = marked.text :=
    (List.append_assoc _ _ _).symm
  have texts : marked.items =
      (mark.text ++ items.first.text) :: items.items.tail.map Item.text := by
    simp [marked, Listing.items, Listing.map]
  have each : ∀ text ∈ marked.items, IsItem text := by
    rw [texts]
    exact List.forall_mem_cons.2
      ⟨mark.isItem items.first, List.forall_mem_map.2 fun item _ => item.isItem⟩
  rw [whole, ofList_listing_text kind each, texts,
    List.filterMap_cons_none (mark.ofItem?_text_append items.first kind), List.filterMap_map,
    ← List.filterMap_eq_map]
  exact List.filterMap_congr fun item _ => item.ofItem?_text kind

/-- The items of a group are read behind what stands before the brace, except those whose own
kind is not read. -/
theorem ofGroup_inner (kind : ImportKind) (outer : Text) (group : Group) :
    ofGroup kind outer (group.inner ++ ['}']) =
      group.items.items.filterMap fun item =>
        if LowerMark item.own then
          some (item.toImport kind (Text.dropEndWhile (· == '\\') (Text.trim outer)))
        else none := by
  have closed := Text.dropEndWhile_beq_concat fun last =>
    group.brace_notMem_inner (List.mem_of_getLast? last)
  rw [ofGroup, Text.trimEnd_concat (by decide), closed]
  generalize Text.dropEndWhile (· == '\\') (Text.trim outer) = front
  let read (text : Text) : Option Import :=
    (ofItem? (splitKind text kind).1 (splitKind text kind).2).map (qualify front)
  have nothing : read [] = none := rfl
  have all := Listing.filterMap_splitOn_text nothing
    (isItem_of_mem_items GroupItem.isItem group.items) group.lead group.ending
  refine all.trans ?_
  rw [Listing.items_map, List.filterMap_map]
  exact List.filterMap_congr fun item _ => item.read_text kind front

/-! ## Declarations -/

theorem tight_markText_append (mark : Option KindMark) {rest : Text} (tight : Text.Tight rest)
    (nonempty : rest ≠ []) : Text.Tight (markText mark ++ rest) := by
  cases mark with
  | none => exact tight
  | some mark =>
      exact mark.isWord_spelling.isItem.tight.append tight mark.isWord_spelling.nonempty nonempty
        mark.gap.text

/-- White space and a semicolon, or either alone, is dropped from the end of a declaration. -/
theorem trimEnd_dropEndWhile_semicolon {core : Text} (tight : Text.Tight core)
    (nonempty : core ≠ []) (stop : core.getLast? ≠ some ';') (before : Blanks)
    (semicolon : Bool) :
    Text.trimEnd (Text.dropEndWhile (· == ';')
      (Text.trim (core ++ before.text ++ if semicolon then [';'] else []))) = core := by
  cases semicolon with
  | false =>
      have last : ∀ c ∈ core.getLast?, (c == ';') = false := fun c isLast =>
        beq_eq_false_iff_ne.2 fun same => stop (same ▸ isLast)
      rw [if_neg Bool.false_ne_true, List.append_nil, Text.trim_append_blank before.blank,
        tight.trim, Text.dropEndWhile_eq_self last, tight.trimEnd]
  | true =>
      have alone : Text.Tight [';'] := .of_solid (Text.forall_mem_of_all rfl)
      have last : (core ++ before.text).getLast? ≠ some ';' := by
        intro isLast
        by_cases empty : before.text = []
        · rw [empty, List.append_nil] at isLast
          exact stop isLast
        · rw [List.getLast?_append_of_ne_nil _ empty] at isLast
          exact absurd (before.whole _ (List.mem_of_getLast? isLast)) (by decide)
      rw [if_pos rfl, (tight.append alone nonempty (by simp) before.text).trim,
        Text.dropEndWhile_beq_concat last, Text.trimEnd_append_blank before.blank,
        tight.trimEnd]

namespace Declaration

variable (decl : Declaration)

theorem content_ne_nil : decl.content ≠ [] := by
  simp [content, decl.body.isBody.nonempty]

theorem tight_content : Text.Tight decl.content :=
  tight_markText_append decl.kind decl.body.isBody.tight decl.body.isBody.nonempty

theorem isWord_spelling : IsWord decl.spelling.text :=
  decl.spelling.isWord (by decide)

theorem splitKind_content :
    splitKind decl.content .classLike =
      if LowerMark decl.kind then (markKind decl.kind .classLike, decl.body.text)
      else (.classLike, decl.content) :=
  splitKind_mark decl.kind .classLike decl.body.isBody.tight.start decl.body.isBody.free

/-- Without white space at its ends and its semicolon, a declaration ends where its body ends. -/
theorem trimmed_text :
    Text.trimEnd (Text.dropEndWhile (· == ';') (Text.trim decl.text)) =
      decl.spelling.text ++ (decl.gap.text ++ decl.content) := by
  have tight : Text.Tight (decl.spelling.text ++ (decl.gap.text ++ decl.content)) := by
    simpa using decl.isWord_spelling.isItem.tight.append decl.tight_content
      decl.isWord_spelling.nonempty decl.content_ne_nil decl.gap.text
  have nonempty : decl.spelling.text ++ (decl.gap.text ++ decl.content) ≠ [] := by
    simp [decl.content_ne_nil]
  have stop : (decl.spelling.text ++ (decl.gap.text ++ decl.content)).getLast? ≠ some ';' := by
    rw [← List.append_assoc, content, ← List.append_assoc,
      List.getLast?_append_of_ne_nil _ decl.body.isBody.nonempty]
    exact decl.body.isBody.stop
  have frame : decl.text = decl.lead.text ++
      ((decl.spelling.text ++ (decl.gap.text ++ decl.content)) ++ decl.before.text ++
        (if decl.semicolon then [';'] else []) ++ decl.trail.text) := by
    simp [text]
  rw [frame, Text.trim_blank_append decl.lead.blank, Text.trim_append_blank decl.trail.blank]
  exact trimEnd_dropEndWhile_semicolon tight nonempty stop decl.before decl.semicolon

theorem afterKeyword?_text :
    afterKeyword? "use".toList
        (Text.trimEnd (Text.dropEndWhile (· == ';') (Text.trim decl.text))) =
      if decl.spelling.text = "use".toList then some decl.content else none := by
  rw [trimmed_text]
  exact afterKeyword?_spelling (Text.forall_mem_of_all rfl) decl.spelling decl.gap
    decl.tight_content.start

/-- Nothing is read unless `use` is in lower case. -/
theorem ofDeclaration_text_eq_nil (other : decl.spelling.text ≠ "use".toList) :
    ofDeclaration decl.text = [] := by
  rw [ofDeclaration, afterKeyword?_text, if_neg other]

section Use

variable {decl} (lower : decl.spelling.text = "use".toList) {kind : ImportKind}

include lower

theorem ofDeclaration_text_list {rest : Text}
    (split : splitKind decl.content .classLike = (kind, rest)) (noBrace : '{' ∉ rest) :
    ofDeclaration decl.text = ofList kind rest := by
  have absent : rest.dropWhile (· != '{') = [] :=
    List.dropWhile_eq_nil_iff.2 fun c member => bne_iff_ne.2 fun same => noBrace (same ▸ member)
  simp only [ofDeclaration, afterKeyword?_text, if_pos lower, split, absent]

theorem ofDeclaration_text_group {outer inner : Text}
    (split : splitKind decl.content .classLike = (kind, outer ++ '{' :: inner))
    (noBrace : '{' ∉ outer) : ofDeclaration decl.text = ofGroup kind outer inner := by
  have ahead : ∀ c ∈ outer, c != '{' := fun c member =>
    bne_iff_ne.2 fun same => noBrace (same ▸ member)
  have found : (outer ++ '{' :: inner).dropWhile (· != '{') = '{' :: inner := by
    rw [List.dropWhile_append_of_pos ahead]
    rfl
  have front : (outer ++ '{' :: inner).takeWhile (· != '{') = outer := by
    rw [List.takeWhile_append_of_pos ahead]
    simp
  simp only [ofDeclaration, afterKeyword?_text, if_pos lower, split, found, front]

end Use

end Declaration

end Written

end Import

end TagLift
