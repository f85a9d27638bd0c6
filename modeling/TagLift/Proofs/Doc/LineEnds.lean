import TagLift.Proofs.Migration.PerClass
import TagLift.Proofs.Text.Paired

/-!
# Line ends of doc comments

A text is paired if every line but the last ends in a carriage return. Stripping keeps the last
line and leaves out whole lines, so it keeps a doc comment paired. What a tag reads stands in one
line, so no line feed gets from a doc comment into an attribute.
-/

namespace TagLift

namespace Text

theorem paired_joinLines_iff {lines : List Text} (whole : ∀ line ∈ lines, '\n' ∉ line) :
    Paired (joinLines lines) ↔ ∀ line ∈ lines.dropLast, line.getLast? = some '\r' := by
  induction lines with
  | nil => simp [Paired, joinLines]
  | cons line lines ih =>
      obtain ⟨here, later⟩ := List.forall_mem_cons.1 whole
      cases lines with
      | nil => simpa [joinLines] using Paired.of_notMem here
      | cons second rest =>
          have split : joinLines (line :: second :: rest) =
              line ++ '\n' :: joinLines (second :: rest) := by
            simp [joinLines, List.intercalate_cons_of_ne_nil]
          rw [split, ← pairedFrom_false_iff, pairedFrom_append,
            pairedFrom_false_iff.2 (Paired.of_notMem here), Bool.true_and, pairedFrom,
            Bool.and_eq_true, List.dropLast_cons_cons, List.forall_mem_cons, ← ih later,
            ← pairedFrom_false_iff, ← returnAfter_false_iff]
          simp

theorem paired_iff {text : Text} :
    Paired text ↔ ∀ line ∈ text.splitLines.dropLast, line.getLast? = some '\r' := by
  rw [← paired_joinLines_iff fun line member => newline_notMem_of_mem_splitLines member,
    joinLines_splitLines]

end Text

/-! ## Stripped comments -/

theorem DocLine.dropLast_stripLines_sublist (kinds : List DirectiveKind) (lines : List Text) :
    (stripLines kinds lines).dropLast.Sublist lines.dropLast := by
  match lines with
  | [] => exact List.Sublist.refl _
  | [_] => exact List.Sublist.refl _
  | first :: second :: rest =>
      obtain ⟨inner, last, split⟩ := exists_inner first second rest
      rw [split, stripLines_append, List.dropLast_concat, List.dropLast_concat]
      exact (settle_sublist true [] inner).cons_cons first

theorem paired_stripDirectives (kinds : List DirectiveKind) {doc : Text} (paired : doc.Paired) :
    (stripDirectives kinds doc).Paired := by
  rw [Text.paired_iff, splitLines_stripDirectives]
  intro line member
  exact Text.paired_iff.1 paired line
    ((DocLine.dropLast_stripLines_sublist kinds doc.splitLines).subset member)

/-! ## Values of tags -/

namespace Form

/-- The parts of an occurrence are made of characters of the text. -/
def ReadsParts (form : Form) : Prop :=
  ∀ text found, form text = some found → ∀ part ∈ found.parts, part ⊆ text

theorem ReadsParts.of_mem_findFrom {form : Form} (reads : form.ReadsParts) {skip : Nat}
    {text : Text} {found : Occurrence} (member : found ∈ form.findFrom skip text) :
    ∀ part ∈ found.parts, part ⊆ text := by
  induction text generalizing skip with
  | nil =>
      rw [findFrom] at member
      cases member
  | cons c rest ih =>
      have later {skip : Nat} (inRest : found ∈ form.findFrom skip rest) :
          ∀ part ∈ found.parts, part ⊆ c :: rest :=
        fun part isPart => List.subset_cons_of_subset c (ih inRest part isPart)
      cases skip with
      | succ skip => exact later member
      | zero =>
          rw [findFrom] at member
          split at member
          next read =>
            rcases List.mem_cons.1 member with rfl | inRest
            · exact reads _ _ read
            · exact later inRest
          next => exact later member

/-- No part of an occurrence in a line holds a line feed. -/
theorem ReadsParts.newline_notMem {form : Form} (reads : form.ReadsParts) {doc line : Text}
    (isLine : line ∈ doc.lines) {found : Occurrence} (member : found ∈ form.findAll line)
    (index : Nat) : '\n' ∉ found.parts.getD index [] := by
  rw [List.getD_eq_getElem?_getD]
  cases here : found.parts[index]? with
  | none => simp
  | some part =>
      have subset := reads.of_mem_findFrom member part (List.mem_of_getElem? here)
      exact fun feed => Text.newline_notMem_of_mem_lines isLine (subset feed)

end Form

theorem Name.simple?_subset {text name : Text} (read : simple? text = some name) :
    name ⊆ text := by
  unfold simple? at read
  split at read
  next c rest =>
    split at read
    · obtain rfl := Option.some.inj read
      exact List.cons_subset_cons c (List.takeWhile_sublist _).subset
    · cases read
  next => cases read

theorem Name.qualified?_subset {text name : Text} (read : qualified? text = some name) :
    name ⊆ text := by
  unfold qualified? at read
  split at read
  next c rest =>
    split at read
    · obtain rfl := Option.some.inj read
      exact List.cons_subset_cons _ (List.cons_subset_cons c (List.takeWhile_sublist _).subset)
    · cases read
  next c rest _ =>
    split at read
    · obtain rfl := Option.some.inj read
      exact List.cons_subset_cons c (List.takeWhile_sublist _).subset
    · cases read
  next => cases read

namespace Tag

theorem readsParts_valued (head : Text) (inValue : Char → Bool) :
    (valued head inValue).ReadsParts := by
  intro text found read
  simp only [valued, Option.bind_eq_bind, Option.bind_eq_some_iff] at read
  obtain ⟨rest, front, read⟩ := read
  split at read
  · cases read
  · obtain rfl := Option.some.inj read
    rw [List.isPrefixOf?_eq_some_iff_append_eq] at front
    intro part isPart
    obtain rfl := List.mem_singleton.1 isPart
    have inside : (rest.dropWhile isBlank).takeWhile inValue ⊆ rest :=
      ((List.takeWhile_sublist _).trans (List.dropWhile_sublist _)).subset
    rw [← front]
    exact List.subset_append_of_subset_right head inside

theorem readsParts_covers : covers.ReadsParts := by
  intro text found read
  simp only [covers, Option.bind_eq_bind, Option.bind_eq_some_iff] at read
  obtain ⟨rest, front, read⟩ := read
  split at read
  · cases read
  · simp only [Option.bind_eq_some_iff, pure, Option.some.injEq] at read
    obtain ⟨className, named, afterColons, colons, method, called, rfl⟩ := read
    rw [List.isPrefixOf?_eq_some_iff_append_eq] at front colons
    have behindTag : rest.dropWhile isBlank ⊆ text := by
      rw [← front]
      exact List.subset_append_of_subset_right _ (List.dropWhile_sublist _).subset
    have behindColons : afterColons ⊆ rest.dropWhile isBlank := by
      have behind : afterColons ⊆ (rest.dropWhile isBlank).drop className.length := by
        rw [← colons]
        exact List.subset_append_right _ _
      exact List.Subset.trans behind (List.drop_sublist _ _).subset
    have first : className ⊆ text := List.Subset.trans (Name.qualified?_subset named) behindTag
    have second : method ⊆ text :=
      List.Subset.trans (Name.simple?_subset called) (List.Subset.trans behindColons behindTag)
    simpa using ⟨first, second⟩

end Tag

/-! ## Directives -/

/-- No value of a directive holds a line feed. -/
structure Directives.Inline (found : Directives) : Prop where
  groups : ∀ value ∈ found.groups, '\n' ∉ value
  covers : ∀ ref ∈ found.covers, '\n' ∉ ref.className ∧ '\n' ∉ ref.method
  dataProviders : ∀ value ∈ found.dataProviders, '\n' ∉ value

theorem Directives.newline_notMem_of_mem_values {form : Form} (reads : form.ReadsParts)
    {doc value : Text} (member : value ∈ values form doc.lines) : '\n' ∉ value := by
  obtain ⟨line, isLine, read⟩ := List.mem_flatMap.1 member
  obtain ⟨found, isFound, rfl⟩ := List.mem_map.1 read
  exact reads.newline_notMem isLine isFound 0

theorem Directives.inline_ofDoc (doc : Text) : (ofDoc doc).Inline where
  groups _ := newline_notMem_of_mem_values (Tag.readsParts_valued _ _)
  dataProviders _ := newline_notMem_of_mem_values (Tag.readsParts_valued _ _)
  covers := by
    intro ref member
    obtain ⟨line, isLine, read⟩ := List.mem_flatMap.1 member
    obtain ⟨found, isFound, rfl⟩ := List.mem_map.1 read
    exact ⟨Tag.readsParts_covers.newline_notMem isLine isFound 0,
      Tag.readsParts_covers.newline_notMem isLine isFound 1⟩

theorem Declaration.inline_found (decl : Declaration) : decl.found.Inline := by
  rw [found]
  split
  · exact Directives.inline_ofDoc _
  · exact ⟨by simp [Directives.none], by simp [Directives.none], by simp [Directives.none]⟩

theorem Text.notMem_intercalate {c : Char} {separator : Text} {parts : List Text}
    (absent : c ∉ separator) (each : ∀ part ∈ parts, c ∉ part) :
    c ∉ separator.intercalate parts := by
  induction parts with
  | nil => simp [List.intercalate]
  | cons part parts ih =>
      obtain ⟨here, later⟩ := List.forall_mem_cons.1 each
      cases parts with
      | nil => simpa [List.intercalate] using here
      | cons second rest =>
          rw [List.intercalate_cons_of_ne_nil (by simp)]
          simp only [List.mem_append, not_or]
          exact ⟨⟨here, absent⟩, ih later⟩

theorem Expr.newline_notMem_escape {text : Text} (absent : '\n' ∉ text) : '\n' ∉ escape text := by
  induction text with
  | nil => exact absent
  | cons c rest ih =>
      obtain ⟨here, later⟩ := not_or.1 (List.mem_cons.not.1 absent)
      rw [escape]
      split <;> simp [here, ih later]

namespace Directive

/-- No value of the directive holds a line feed. -/
def Inline (directive : Directive) : Prop :=
  ∀ value ∈ directive.values, '\n' ∉ value.render

theorem inline_group {value : Text} (absent : '\n' ∉ value) : Inline (.group value) := by
  simp [Inline, values, Expr.render, Expr.newline_notMem_escape absent]

theorem inline_dataProvider {method : Text} (absent : '\n' ∉ method) :
    Inline (.dataProvider method) := by
  simp [Inline, values, Expr.render, Expr.newline_notMem_escape absent]

theorem inline_covers {ref : CoversRef} (className : '\n' ∉ ref.className)
    (method : '\n' ∉ ref.method) : Inline (.covers ref) := by
  simp [Inline, values, Expr.render, className, Expr.newline_notMem_escape method]

/-- The group of such a directive is written in one line. -/
theorem Inline.newline_notMem_render {directive : Directive} (inline : directive.Inline) :
    '\n' ∉ directive.toGroup.render := by
  have args : '\n' ∉ ", ".toList.intercalate
      ((directive.values.map Arg.positional).map Arg.render) := by
    apply Text.notMem_intercalate (by decide)
    intro text written
    obtain ⟨arg, isArg, rfl⟩ := List.mem_map.1 written
    obtain ⟨value, isValue, rfl⟩ := List.mem_map.1 isArg
    exact inline value isValue
  have name : '\n' ∉ directive.shortName := by
    cases directive <;> exact of_decide_eq_true rfl
  have inside :
      '\n' ∉ Attribute.render ⟨directive.shortName, directive.values.map Arg.positional⟩ := by
    rw [Attribute.render]
    split
    · exact name
    · simp only [List.mem_append, not_or]
      exact ⟨⟨⟨name, by decide⟩, args⟩, by decide⟩
  have group := Text.notMem_intercalate (by decide : '\n' ∉ ", ".toList)
    (List.forall_mem_singleton.2 inside)
  rw [AttributeGroup.render]
  simp only [List.mem_append, not_or]
  exact ⟨⟨by decide, group⟩, by decide⟩

end Directive

/-- Whatever the doc comments of a class ask for is written in one line. -/
theorem ClassDecl.inline_of_mem_directives {decl : ClassDecl} {directive : Directive}
    (asked : directive ∈ decl.directives) : directive.Inline := by
  have ofGroups {inner : Declaration} (member : directive ∈ inner.found.groups.map .group) :
      directive.Inline := by
    obtain ⟨value, isGroup, rfl⟩ := List.mem_map.1 member
    exact Directive.inline_group (inner.inline_found.groups value isGroup)
  rw [directives, List.mem_append, List.mem_append] at asked
  rcases asked with (own | onMethods) | covered
  · split at own
    · exact ofGroups own
    · cases own
  · obtain ⟨method, -, found⟩ := List.mem_flatMap.1 onMethods
    rw [Directives.onMethod, List.mem_append, List.mem_append] at found
    rcases found with (test | group) | provider
    · split at test
      · obtain rfl := List.mem_singleton.1 test
        exact List.forall_mem_nil _
      · cases test
    · exact ofGroups group
    · obtain ⟨name, first, rfl⟩ := List.mem_map.1 provider
      have isProvider : name ∈ method.found.dataProviders :=
        List.mem_of_mem_head? (Option.mem_toList.1 first)
      exact Directive.inline_dataProvider (method.inline_found.dataProviders name isProvider)
  · split at covered
    · obtain ⟨ref, isRef, rfl⟩ := List.mem_map.1 covered
      obtain ⟨method, -, found⟩ := List.mem_flatMap.1 (List.mem_eraseDups.1 isRef)
      obtain ⟨className, called⟩ := method.inline_found.covers ref found
      exact Directive.inline_covers className called
    · cases covered

end TagLift
