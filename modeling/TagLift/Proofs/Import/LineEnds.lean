import TagLift.Attribute.Directive
import TagLift.Import.Parse
import TagLift.Proofs.Text.Paired
import TagLift.Proofs.Text.Split

/-!
# Line ends in imports

The names of an import are words of a `use` declaration, so they hold no line feed. Only the front
part of a group may run over several lines. It is a part of the declaration that starts with a
character other than white space, so it is paired where the declaration is.
-/

namespace TagLift

namespace Text

theorem dropEndWhile_isPrefix (p : Char → Bool) (text : Text) : dropEndWhile p text <+: text := by
  have back : (text.reverse.dropWhile p).reverse <+: text.reverse.reverse :=
    List.reverse_prefix.2 (List.dropWhile_suffix p)
  rwa [List.reverse_reverse] at back

theorem trimStart_suffix (text : Text) : trimStart text <:+ text :=
  List.dropWhile_suffix isBlank

theorem trim_isInfix (text : Text) : trim text <:+: text :=
  (dropEndWhile_isPrefix isBlank _).isInfix.trans (trimStart_suffix text).isInfix

/-- A part of a paired text is paired where white space in front is left out. -/
theorem Paired.of_prefix_trimStart {text part front : Text} (paired : Paired text)
    (inside : part <:+: text) (starts : front <+: trimStart part) : Paired front := by
  have frontInside := (starts.isInfix.trans (trimStart_suffix part).isInfix).trans inside
  refine paired.part frontInside fun feed => ?_
  obtain ⟨rest, equal⟩ := starts
  have first : (trimStart part).head? = some '\n' := by
    rw [← equal, List.head?_append, feed]
    rfl
  have solid := List.head?_dropWhile_not isBlank part
  rw [trimStart] at first
  rw [first] at solid
  revert solid
  decide

theorem Paired.dropWhile {text : Text} {p : Char → Bool} (paired : Paired text)
    (other : p '\r' = false) : Paired (text.dropWhile p) := by
  rw [← pairedFrom_false_iff] at paired ⊢
  induction text with
  | nil => rfl
  | cons c rest ih =>
      rw [List.dropWhile_cons]
      split
      next drops =>
        have differs : c ≠ '\r' := by
          rintro rfl
          rw [other] at drops
          cases drops
        rw [pairedFrom, Bool.and_eq_true, beq_eq_false_iff_ne.2 differs] at paired
        exact ih paired.2
      next => exact paired

end Text

namespace Import

/-- The names of the import are paired, the other name if it has one. -/
structure NamesPaired (decl : Import) : Prop where
  name : decl.name.Paired
  asName : ∀ asName ∈ decl.asName, Text.Paired asName

theorem NamesPaired.render {decl : Import} (paired : decl.NamesPaired) : decl.render.Paired := by
  have use : Text.Paired "use ".toList := by decide
  have keyword : decl.kind.keyword.Paired := by
    cases decl.kind <;> decide
  unfold Import.render
  refine (((use.append keyword).append paired.name).append ?_).append (by decide)
  split
  next asName given =>
    have word : Text.Paired " as ".toList := by decide
    exact word.append (paired.asName asName given)
  next => decide

theorem namesPaired_ofClass (directive : Directive) :
    (ofClass directive.importName).NamesPaired where
  name := by cases directive <;> exact of_decide_eq_true rfl
  asName := by simp [ofClass]

theorem namesPaired_ofItem? {kind : ImportKind} {item : Text} {decl : Import}
    (read : ofItem? kind item = some decl) : decl.NamesPaired := by
  have solid : ∀ word ∈ item.words, '\n' ∉ word := fun _ => Text.newline_notMem_of_mem_words
  have name {word : Text} (isWord : word ∈ item.words) :
      Text.Paired (word.dropWhile (· == '\\')) :=
    (Text.Paired.of_notMem (solid word isWord)).dropWhile rfl
  unfold ofItem? at read
  split at read
  next word isWord =>
    obtain rfl := Option.some.inj read
    exact ⟨name (by simp [isWord]), by simp⟩
  next word keyword asName areWords =>
    split at read
    · obtain rfl := Option.some.inj read
      refine ⟨name (by simp [areWords]), ?_⟩
      simpa using Text.Paired.of_notMem (solid asName (by simp [areWords]))
    · cases read
  next => cases read

theorem NamesPaired.qualify {front : Text} (paired : front.Paired) {decl : Import}
    (names : decl.NamesPaired) : (decl.qualify front).NamesPaired where
  name := ((paired.dropWhile rfl).append (by decide)).append names.name
  asName := names.asName

theorem afterKeyword?_suffix {keyword text rest : Text}
    (read : afterKeyword? keyword text = some rest) : rest <:+ text := by
  simp only [afterKeyword?, Option.bind_eq_bind, Option.bind_eq_some_iff] at read
  obtain ⟨behind, front, read⟩ := read
  split at read
  · obtain rfl := Option.some.inj read
    rw [List.isPrefixOf?_eq_some_iff_append_eq] at front
    exact (Text.trimStart_suffix behind).trans ⟨keyword, front⟩
  · cases read

theorem splitKind_suffix (text : Text) (kind : ImportKind) : (splitKind text kind).2 <:+ text := by
  rw [splitKind]
  split
  next read => exact afterKeyword?_suffix read
  next =>
    split
    next read => exact afterKeyword?_suffix read
    next => exact List.suffix_refl text

/-- All imports of a paired declaration have paired names. -/
theorem namesPaired_ofDeclaration {text : Text} (paired : text.Paired) :
    ∀ decl ∈ ofDeclaration text, decl.NamesPaired := by
  intro decl member
  simp only [ofDeclaration] at member
  split at member
  · cases member
  next rest read =>
    have inside : (splitKind rest .classLike).2 <:+: text := by
      have body : Text.trimEnd (Text.dropEndWhile (· == ';') (Text.trim text)) <:+: text :=
        ((Text.dropEndWhile_isPrefix _ _).trans (Text.dropEndWhile_isPrefix _ _)).isInfix.trans
          (Text.trim_isInfix text)
      exact ((splitKind_suffix rest _).trans (afterKeyword?_suffix read)).isInfix.trans body
    split at member
    next inner _ =>
      obtain ⟨item, -, made⟩ := List.mem_filterMap.1 member
      obtain ⟨plain, isItem, rfl⟩ := Option.map_eq_some_iff.1 made
      refine (namesPaired_ofItem? isItem).qualify ?_
      have front := List.takeWhile_prefix (· != '{') (l := (splitKind rest .classLike).2)
      exact paired.of_prefix_trimStart (front.isInfix.trans inside)
        ((Text.dropEndWhile_isPrefix _ _).trans (Text.dropEndWhile_isPrefix _ _))
    next =>
      obtain ⟨item, -, made⟩ := List.mem_filterMap.1 member
      exact namesPaired_ofItem? made

end Import

end TagLift
