import TagLift.Proofs.Import.Written

/-!
# Letter case of keywords

The word `as` is read in any letter case. The other keywords of a declaration, `use` and those of
the kinds, are read in lower case only. Written otherwise, `use` makes a declaration say nothing,
the kind of a list or of an item makes an item say nothing, and the kind of a group becomes part
of every name. So the imports of a declaration are those it has in lower case exactly if every
keyword but `as` is in lower case.
-/

namespace TagLift

namespace Import

namespace Written

/-! ## Declarations in lower case -/

def OtherName.lower (other : OtherName) : OtherName :=
  { other with spelling := ⟨"as".toList, by decide⟩ }

def KindMark.lower (mark : KindMark) : KindMark :=
  { mark with spelling := ⟨mark.keyword.word, by cases mark.keyword <;> decide⟩ }

def Item.lower (item : Item) : Item :=
  { item with other := item.other.map OtherName.lower }

def GroupItem.lower (item : GroupItem) : GroupItem :=
  ⟨item.own.map KindMark.lower, item.item.lower⟩

def Body.lower : Body → Body
  | .ofList items => .ofList (items.map Item.lower)
  | .ofGroup group => .ofGroup { group with items := group.items.map GroupItem.lower }

/-- The declaration with every keyword in lower case. -/
def Declaration.lower (decl : Declaration) : Declaration :=
  { decl with
    spelling := ⟨"use".toList, by decide⟩
    kind := decl.kind.map KindMark.lower
    body := decl.body.lower }

/-- Whether the items of a group name their own kinds in lower case. -/
def Body.KindsLower : Body → Prop
  | .ofList _ => True
  | .ofGroup group => ∀ item ∈ group.items.items, LowerMark item.own

/-- Whether every keyword but `as` is in lower case. -/
structure Declaration.KeywordsLower (decl : Declaration) : Prop where
  use : decl.spelling.text = "use".toList
  kind : LowerMark decl.kind
  items : decl.body.KindsLower

theorem lowerMark_lower (mark : Option KindMark) : LowerMark (mark.map KindMark.lower) := by
  intro own isOwn
  obtain ⟨original, -, rfl⟩ := Option.map_eq_some_iff.1 isOwn
  rfl

theorem markKind_lower (mark : Option KindMark) (kind : ImportKind) :
    markKind (mark.map KindMark.lower) kind = markKind mark kind := by
  cases mark <;> rfl

theorem Item.toImport_lower (item : Item) (kind : ImportKind) :
    item.lower.toImport kind = item.toImport kind := by
  simp only [toImport, lower, Option.map_map]
  rfl

theorem GroupItem.toImport_lower (item : GroupItem) (kind : ImportKind) (front : Text) :
    item.lower.toImport kind front = item.toImport kind front := by
  simp only [toImport, lower, markKind_lower, Item.toImport_lower]

theorem Body.imports_lower (body : Body) (kind : ImportKind) :
    body.lower.imports kind = body.imports kind := by
  cases body with
  | ofList items => simp [lower, imports, Item.toImport_lower, Function.comp_def]
  | ofGroup group => simp [lower, imports, GroupItem.toImport_lower, Function.comp_def]

namespace Declaration

/-- What a declaration says does not depend on letter case. -/
theorem imports_lower (decl : Declaration) : decl.lower.imports = decl.imports := by
  simp only [imports, lower, markKind_lower, Body.imports_lower]

theorem keywordsLower_lower (decl : Declaration) : decl.lower.KeywordsLower where
  use := rfl
  kind := lowerMark_lower decl.kind
  items := by
    rw [lower]
    cases decl.body with
    | ofList items => trivial
    | ofGroup group =>
        simp only [Body.lower, Body.KindsLower, Listing.items_map, List.forall_mem_map]
        exact fun item _ => lowerMark_lower item.own

end Declaration

/-! ## Texts that differ in letter case -/

theorem Spelling.toLower_text {keyword : Text} (left right : Spelling keyword) :
    left.text.map Char.toLower = right.text.map Char.toLower :=
  left.spells.trans right.spells.symm

theorem toLower_markText_lower (mark : Option KindMark) :
    (markText (mark.map KindMark.lower)).map Char.toLower = (markText mark).map Char.toLower := by
  cases mark with
  | none => rfl
  | some mark =>
      simp only [Option.map_some, markText, Option.elim_some, KindMark.text, List.map_append,
        mark.lower.spelling.toLower_text mark.spelling]
      rfl

theorem Item.toLower_text_lower (item : Item) :
    item.lower.text.map Char.toLower = item.text.map Char.toLower := by
  simp only [text, lower]
  cases item.other with
  | none => rfl
  | some other =>
      simp only [Option.map_some, Option.elim_some, OtherName.text, List.map_append,
        other.lower.spelling.toLower_text other.spelling]
      rfl

theorem GroupItem.toLower_text_lower (item : GroupItem) :
    item.lower.text.map Char.toLower = item.text.map Char.toLower := by
  simp only [text, lower, List.map_append, toLower_markText_lower, Item.toLower_text_lower]

theorem Listing.toLower_text {α : Type} {write : α → Text} {lower : α → α}
    (same : ∀ item, (write (lower item)).map Char.toLower = (write item).map Char.toLower)
    (listing : Listing α) :
    ((listing.map lower).map write).text.map Char.toLower =
      (listing.map write).text.map Char.toLower := by
  simp [text, map, List.map_flatMap, List.flatMap_map, same]

theorem Body.toLower_text_lower (body : Body) :
    body.lower.text.map Char.toLower = body.text.map Char.toLower := by
  cases body with
  | ofList items => exact Listing.toLower_text Item.toLower_text_lower items
  | ofGroup group =>
      simp only [lower, text, Group.text, Group.outer, Group.inner, List.map_append, List.map_cons,
        Listing.toLower_text GroupItem.toLower_text_lower]

theorem Declaration.toLower_text_lower (decl : Declaration) :
    decl.lower.text.map Char.toLower = decl.text.map Char.toLower := by
  simp only [text, content, lower, List.map_append, toLower_markText_lower,
    Body.toLower_text_lower, decl.spelling.spells]
  rfl

/-! ## When the imports are read -/

/-- Keeping the images of some elements gives the images of all under another function only if
all are kept and the functions agree. -/
theorem filterMap_ite_eq_map_iff {α β : Type} {p : α → Prop} [DecidablePred p] {f g : α → β}
    {list : List α} :
    (list.filterMap fun x => if p x then some (f x) else none) = list.map g ↔
      ∀ x ∈ list, p x ∧ f x = g x := by
  induction list with
  | nil => simp
  | cons first rest ih =>
      by_cases kept : p first
      · simp [kept, ih]
      · -- Something is missing, so the left list is shorter.
        have short := List.length_filterMap_le (fun x => if p x then some (f x) else none) rest
        simp only [List.filterMap_cons, kept, if_false, List.map_cons, List.forall_mem_cons,
          false_and, iff_false]
        intro equal
        rw [equal, List.length_cons, List.length_map] at short
        omega

namespace KindMark

variable (mark : KindMark)

theorem notMem_text {c : Char} (separates : isSeparator c) : c ∉ mark.text := by
  refine List.not_mem_append (fun member => ?_) fun member => ?_
  · simp [mark.isWord_spelling.whole c member] at separates
  · simp [mark.gap.whole c member] at separates

theorem text_ne_nil : mark.text ≠ [] := by
  simp [text, mark.isWord_spelling.nonempty]

theorem backslash_ne_head : mark.text.head? ≠ some '\\' := by
  rw [text, List.head?_append_of_ne_nil _ mark.isWord_spelling.nonempty]
  intro first
  refine mark.spelling.notMem (by decide) ?_ (List.mem_of_mem_head? first)
  cases mark.keyword <;> decide

/-- A keyword that was not read becomes the start of a group's front part. -/
theorem dropEndWhile_trim_append (group : Group) :
    Text.dropEndWhile (· == '\\') (Text.trim (mark.text ++ group.outer)) =
      mark.text ++ Text.dropEndWhile (· == '\\') group.front := by
  have front := group.isFront.word
  have tight : Text.Tight (mark.text ++ group.front) :=
    tight_markText_append (some mark) front.isItem.tight front.nonempty
  have last : ∀ c ∈ mark.text.getLast?, (c == '\\') = false := by
    intro c isLast
    rw [text, List.getLast?_append_of_ne_nil _ mark.gap.nonempty] at isLast
    have blank := List.all_eq_true.1 mark.gap.blank c (List.mem_of_getLast? isLast)
    refine beq_eq_false_iff_ne.2 ?_
    rintro rfl
    exact absurd blank (by decide)
  rw [Group.outer, ← List.append_assoc, Text.trim_append_blank group.before.blank, tight.trim]
  exact Text.dropEndWhile_append last _

/-- A longer front part makes the name of an item longer. -/
theorem toImport_append_ne (item : GroupItem) (front : Text) (kind kind' : ImportKind) :
    item.toImport kind (mark.text ++ front) ≠ item.toImport kind' front := by
  intro equal
  have start : (mark.text ++ front).head? ≠ some '\\' := by
    rw [List.head?_append_of_ne_nil _ mark.text_ne_nil]
    exact mark.backslash_ne_head
  have names := congrArg (fun decl => decl.name.length) equal
  simp only [GroupItem.toImport, qualify, Item.toImport, Text.dropWhile_beq_eq_self start,
    List.length_append] at names
  have shorter := (front.dropWhile_suffix (· == '\\')).length_le
  have longer := List.length_pos_iff.2 mark.text_ne_nil
  omega

end KindMark

theorem Group.trim_outer (group : Group) : Text.trim group.outer = group.front := by
  rw [outer, Text.trim_append_blank group.before.blank, group.isFront.word.isItem.tight.trim]

namespace Declaration

variable {decl : Declaration} (use : decl.spelling.text = "use".toList)

include use

/-- A list is read if its kind is. Its kind in another letter case costs the first item. -/
theorem ofDeclaration_list_iff {items : Listing Item} (isList : decl.body = .ofList items) :
    ofDeclaration decl.text = decl.imports ↔ LowerMark decl.kind := by
  have split := decl.splitKind_content
  have noBrace : '{' ∉ (items.map Item.text).text :=
    Listing.notMem_text (isItem_of_mem_items Item.isItem items) rfl (by decide)
  have meant : decl.imports = items.items.map (·.toImport (markKind decl.kind .classLike)) := by
    rw [imports, isList]
    rfl
  by_cases lower : LowerMark decl.kind
  · rw [if_pos lower, isList] at split
    rw [ofDeclaration_text_list use split noBrace, meant]
    exact iff_of_true (ofList_items _ items) lower
  · rw [if_neg lower] at split
    obtain ⟨mark, isMark, -⟩ := exists_of_not_lowerMark lower
    have content : decl.content = mark.text ++ (items.map Item.text).text := by
      rw [Declaration.content, isList, isMark]
      rfl
    have absent : '{' ∉ decl.content := by
      rw [content]
      exact List.not_mem_append (mark.notMem_text rfl) noBrace
    rw [ofDeclaration_text_list use split absent, content, ofList_mark_append, meant]
    refine iff_of_false (fun equal => ?_) lower
    have lengths := congrArg List.length equal
    simp [Listing.items] at lengths

/-- A group is read if its kind and the kinds of its items are. Its kind in another letter case
stays in front of the names. -/
theorem ofDeclaration_group_iff {group : Group} (isGroup : decl.body = .ofGroup group) :
    ofDeclaration decl.text = decl.imports ↔
      LowerMark decl.kind ∧ ∀ item ∈ group.items.items, LowerMark item.own := by
  have split := decl.splitKind_content
  have meant : decl.imports = group.items.items.map (·.toImport (markKind decl.kind .classLike)
      (Text.dropEndWhile (· == '\\') group.front)) := by
    rw [imports, isGroup]
    rfl
  by_cases lower : LowerMark decl.kind
  · rw [if_pos lower, isGroup] at split
    rw [ofDeclaration_text_group use split group.brace_notMem_outer, ofGroup_inner, meant,
      group.trim_outer, filterMap_ite_eq_map_iff]
    simp [lower]
  · rw [if_neg lower] at split
    obtain ⟨mark, isMark, -⟩ := exists_of_not_lowerMark lower
    have absent : '{' ∉ mark.text ++ group.outer :=
      List.not_mem_append (mark.notMem_text rfl) group.brace_notMem_outer
    have content : decl.content = mark.text ++ group.outer ++ '{' :: (group.inner ++ ['}']) := by
      rw [Declaration.content, isGroup, isMark, List.append_assoc]
      rfl
    have framed := split.trans (congrArg (ImportKind.classLike, ·) content)
    rw [ofDeclaration_text_group use framed absent, ofGroup_inner, meant,
      mark.dropEndWhile_trim_append, filterMap_ite_eq_map_iff]
    refine iff_of_false (fun all => ?_) fun both => lower both.1
    have same := (all group.items.first List.mem_cons_self).2
    exact mark.toImport_append_ne group.items.first _ _ _ same

omit use in
/-- The imports that a declaration means are read exactly if its keywords but `as` are in lower
case. -/
theorem ofDeclaration_text_iff (decl : Declaration) :
    ofDeclaration decl.text = decl.imports ↔ decl.KeywordsLower := by
  by_cases use : decl.spelling.text = "use".toList
  · cases isBody : decl.body with
    | ofList items =>
        rw [ofDeclaration_list_iff use isBody]
        exact ⟨fun kind => ⟨use, kind, isBody ▸ trivial⟩, KeywordsLower.kind⟩
    | ofGroup group =>
        rw [ofDeclaration_group_iff use isBody]
        exact ⟨fun ⟨kind, items⟩ => ⟨use, kind, isBody ▸ items⟩,
          fun lower => ⟨lower.kind, by simpa [isBody, Body.KindsLower] using lower.items⟩⟩
  · rw [ofDeclaration_text_eq_nil decl use]
    refine iff_of_false (fun nothing => ?_) fun lower => use lower.use
    have named : decl.imports ≠ [] := by
      rw [imports]
      cases decl.body <;> simp [Body.imports, Listing.items]
    exact named nothing.symm

end Declaration

/-- Changing the letter case of keywords changes what is read unless only the word `as` is
concerned: a declaration is read as the same declaration in lower case is, which gives the imports
it means, exactly if `use` and the keywords of all kinds are in lower case. -/
theorem ofDeclaration_eq_lower_iff (decl : Declaration) :
    decl.lower.text.map Char.toLower = decl.text.map Char.toLower ∧
    ofDeclaration decl.lower.text = decl.imports ∧
    (ofDeclaration decl.text = ofDeclaration decl.lower.text ↔ decl.KeywordsLower) := by
  have meant : ofDeclaration decl.lower.text = decl.imports :=
    ((Declaration.ofDeclaration_text_iff _).2 decl.keywordsLower_lower).trans decl.imports_lower
  refine ⟨decl.toLower_text_lower, meant, ?_⟩
  rw [meant]
  exact decl.ofDeclaration_text_iff

/-- In capitals, `use` loses the import of a declaration, the kind of a list loses the first item,
the kind of a group becomes part of the names and the kind of an item loses the item. Only `as`
does not matter. -/
theorem capital_keywords_misread :
    (∃ decl : Declaration, decl.text = "USE App\\Foo;".toList ∧
      decl.imports = [ofClass "App\\Foo".toList] ∧ ofDeclaration decl.text = []) ∧
    ofDeclaration "use App\\Foo;".toList = [ofClass "App\\Foo".toList] ∧
    ofDeclaration "use FUNCTION run, walk AS go;".toList =
      [⟨.classLike, "walk".toList, some "go".toList⟩] ∧
    ofDeclaration "use CONST App\\\x7bMAX, Const MIN\x7d;".toList =
      [ofClass "CONST App\\MAX".toList] := by
  let name : Item := ⟨"App\\Foo".toList, ⟨by decide, by decide⟩, none⟩
  let decl : Declaration :=
    { lead := ⟨[], rfl⟩
      spelling := ⟨"USE".toList, by decide⟩
      gap := ⟨⟨[' '], rfl⟩, by decide⟩
      kind := none
      body := .ofList ⟨name, []⟩
      before := ⟨[], rfl⟩
      semicolon := true
      trail := ⟨[], rfl⟩ }
  refine ⟨⟨decl, by decide +kernel, by decide +kernel, by decide +kernel⟩, ?_⟩
  decide +kernel

end Written

end Import

end TagLift
