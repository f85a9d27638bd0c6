import TagLift.Proofs.Layout.BlankRun

/-!
# Normal layout in one pass

An import that crowds the declaration on the next line is set apart by a blank line, and this makes
no other import crowded: what is written lies between a semicolon and a declaration, where no `use`
can follow. Neither this nor dropping the empty end of a doc comment makes a run of line ends, so
what one pass has reached the next ones keep.
-/

namespace TagLift

theorem lineEnd?_eq_some_iff {text ending : Text} :
    lineEnd? text = some ending ↔ IsLineEnd ending ∧ ending <+: text := by
  constructor
  · intro read
    obtain ⟨-, -, split⟩ := lineEnd?_eq_some read
    refine ⟨?_, ⟨_, split⟩⟩
    fun_cases lineEnd? text with
    | case1 => exact .inr (by simpa [lineEnd?] using read.symm)
    | case2 => exact .inl (by simpa [lineEnd?] using read.symm)
    | case3 => simp_all [lineEnd?]
  · rintro ⟨rfl | rfl, rest, rfl⟩
    · rfl
    · rfl

namespace Layout

/-! ## Crowded imports -/

/-- What an attribute group or a doc comment starts with. -/
def IsDeclarationStart (start : Text) : Prop :=
  start = "#[".toList ∨ start = "/**".toList

theorem declarationStart?_eq_some_iff {text start : Text} :
    declarationStart? text = some start ↔ IsDeclarationStart start ∧ start <+: text := by
  constructor
  · intro read
    refine ⟨?_, declarationStart?_prefix read⟩
    simpa [IsDeclarationStart] using List.mem_of_find?_eq_some read
  · rintro ⟨rfl | rfl, rest, rfl⟩
    · rfl
    · rfl

/-- A line that starts with `use` and ends in a semicolon, and the start of a declaration on the
next line. -/
structure CrowdedUse where
  before : Text
  names : Text
  between : Text
  start : Text
  isBefore : IsLineEnd before
  named : names ≠ []
  single : ';' ∉ names
  isBetween : IsLineEnd between
  isStart : IsDeclarationStart start

namespace CrowdedUse

variable (use : CrowdedUse)

/-- The import up to its semicolon. -/
def front : Text :=
  use.before ++ "use".toList ++ use.names

/-- The import, the line end and the start of the declaration. -/
def text : Text :=
  use.front ++ ';' :: (use.between ++ use.start)

theorem semicolon_notMem_front : ';' ∉ use.front := by
  have before : ';' ∉ use.before := by
    rcases use.isBefore with equal | equal <;> rw [equal] <;> decide
  simpa [front, before] using use.single

end CrowdedUse

/-- An import that crowds a declaration somewhere in a text. -/
def HasCrowdedUse (text : Text) : Prop :=
  ∃ use : CrowdedUse, use.text <:+: text

theorem useThenDeclaration_append (use : CrowdedUse) (back : Text) :
    useThenDeclaration (use.text ++ back) =
      some ⟨use.text, [use.front ++ [';'], use.start]⟩ := by
  have whole : use.text ++ back = use.before ++
      ("use".toList ++ (use.names ++ ';' :: (use.between ++ (use.start ++ back)))) := by
    simp [CrowdedUse.text, CrowdedUse.front]
  have ended : lineEnd? (use.text ++ back) = some use.before :=
    lineEnd?_eq_some_iff.2 ⟨use.isBefore, ⟨_, whole.symm⟩⟩
  have useWord : "use".toList.isPrefixOf? ((use.text ++ back).drop use.before.length) =
      some (use.names ++ ';' :: (use.between ++ (use.start ++ back))) := by
    rw [List.isPrefixOf?_eq_some_iff_append_eq, whole, List.drop_left]
  have inNames : ∀ c ∈ use.names, c != ';' := by
    intro c member
    exact bne_iff_ne.2 fun same => use.single (same ▸ member)
  have endedAgain : lineEnd? (use.between ++ (use.start ++ back)) = some use.between :=
    lineEnd?_eq_some_iff.2 ⟨use.isBetween, ⟨_, rfl⟩⟩
  have started : declarationStart? (use.start ++ back) = some use.start :=
    declarationStart?_eq_some_iff.2 ⟨use.isStart, ⟨_, rfl⟩⟩
  have semicolon (rest : Text) : [';'].isPrefixOf? (';' :: rest) = some rest := rfl
  simp only [useThenDeclaration, ended, useWord, Option.bind_eq_bind, Option.bind_some,
    List.takeWhile_append_of_pos inNames, List.dropWhile_append_of_pos inNames]
  simp [use.named, semicolon, endedAgain, started, CrowdedUse.text, CrowdedUse.front]

theorem exists_of_useThenDeclaration {text : Text} {found : Occurrence}
    (read : useThenDeclaration text = some found) :
    ∃ (use : CrowdedUse) (back : Text), text = use.text ++ back ∧
      found = ⟨use.text, [use.front ++ [';'], use.start]⟩ := by
  have reread := read
  simp only [useThenDeclaration, Option.bind_eq_bind, Option.bind_eq_some_iff] at read
  obtain ⟨before, ended, rest, useWord, read⟩ := read
  split at read
  · contradiction
  next named =>
    simp only [Option.bind_eq_some_iff, pure] at read
    obtain ⟨afterUse, semicolon, between, endedAgain, start, started, -⟩ := read
    obtain ⟨isBefore, behind, rfl⟩ := lineEnd?_eq_some_iff.1 ended
    obtain ⟨isBetween, behindAgain, rfl⟩ := lineEnd?_eq_some_iff.1 endedAgain
    rw [List.drop_left] at useWord started
    obtain ⟨isStart, back, rfl⟩ := declarationStart?_eq_some_iff.1 started
    rw [List.isPrefixOf?_eq_some_iff_append_eq] at useWord semicolon
    let use : CrowdedUse :=
      { before, names := rest.takeWhile (· != ';'), between, start, isBefore, isBetween, isStart
        named := by simpa using named
        single := fun member => by simpa using List.mem_takeWhile_imp member }
    have whole : before ++ behind = use.text ++ back := by
      rw [← useWord, ← List.takeWhile_append_dropWhile (p := (· != ';')) (l := rest), ← semicolon]
      simp [use, CrowdedUse.text, CrowdedUse.front]
    refine ⟨use, back, whole, Option.some.inj ?_⟩
    rw [← useThenDeclaration_append use back, ← whole, reread]

theorem isSome_useThenDeclaration {text : Text} :
    (useThenDeclaration text).isSome ↔ ∃ use : CrowdedUse, use.text <+: text := by
  constructor
  · intro read
    obtain ⟨found, read⟩ := Option.isSome_iff_exists.1 read
    obtain ⟨use, back, rfl, -⟩ := exists_of_useThenDeclaration read
    exact ⟨use, back, rfl⟩
  · rintro ⟨use, back, rfl⟩
    rw [useThenDeclaration_append]
    rfl

theorem hasCrowdedUse_iff {text : Text} :
    HasCrowdedUse text ↔ useThenDeclaration.occursIn text := by
  rw [Form.occursIn_iff rfl]
  constructor
  · rintro ⟨use, front, back, rfl⟩
    exact ⟨front, use.text ++ back, List.append_assoc _ _ _,
      isSome_useThenDeclaration.2 ⟨use, back, rfl⟩⟩
  · rintro ⟨front, back, rfl, read⟩
    obtain ⟨use, starts⟩ := isSome_useThenDeclaration.1 read
    exact ⟨use, starts.isInfix.trans (List.suffix_append front back).isInfix⟩

theorem not_hasCrowdedUse_iff {text : Text} :
    ¬HasCrowdedUse text ↔ useThenDeclaration.occursIn text = false := by
  rw [hasCrowdedUse_iff, Bool.not_eq_true]

/-- A line end and the start of a declaration at the front of a text. -/
def OpensDeclaration (text : Text) : Prop :=
  ∃ between start, IsLineEnd between ∧ IsDeclarationStart start ∧ between ++ start <+: text

/-- Whether an import crowds a declaration is decided by what stands in front of its semicolon and
right behind it. -/
theorem opensDeclaration_of_read {front back : Text} (absent : ';' ∉ front)
    (read : (useThenDeclaration (front ++ ';' :: back)).isSome) :
    OpensDeclaration back ∧
      ∀ back', OpensDeclaration back' → (useThenDeclaration (front ++ ';' :: back')).isSome := by
  obtain ⟨use, behind, split⟩ := isSome_useThenDeclaration.1 read
  rw [CrowdedUse.text, List.append_assoc, List.cons_append] at split
  obtain ⟨rfl, rfl⟩ := Text.append_cons_inj_of_notMem use.semicolon_notMem_front absent split
  refine ⟨⟨use.between, use.start, use.isBetween, use.isStart, behind, rfl⟩, ?_⟩
  rintro _ ⟨between, start, isBetween, isStart, behind', rfl⟩
  refine isSome_useThenDeclaration.2 ⟨{ use with between, start, isBetween, isStart }, behind', ?_⟩
  simp [CrowdedUse.text, CrowdedUse.front]

/-! ## Setting imports apart -/

section Separate

variable {newline : Text} (ending : IsLineEnd newline)

include ending

/-- Setting an import apart copies a character, or writes two line ends behind a crowded import. -/
theorem separateImports_induction {motive : Text → Text → Prop} (nil : motive [] [])
    (copy : ∀ c rest, useThenDeclaration (c :: rest) = none →
      motive rest (separateImports newline rest) →
      motive (c :: rest) (c :: separateImports newline rest))
    (swap : ∀ (use : CrowdedUse) back, motive back (separateImports newline back) →
      motive (use.text ++ back)
        (use.front ++ ';' :: (newline ++ newline ++ (use.start ++ separateImports newline back))))
    (text : Text) : motive text (separateImports newline text) := by
  have reads : useThenDeclaration.Reads := by
    intro text found read
    obtain ⟨nonempty, front, -⟩ := useThenDeclaration_keepsBare ending text found read
    exact ⟨nonempty, front⟩
  refine Form.replaceAll_induction reads nil copy ?_ text
  intro found back read later
  obtain ⟨use, behind, split, rfl⟩ := exists_of_useThenDeclaration read
  rw [expand_separator ending]
  change motive _ (_ ++ separateImports newline back)
  simpa using swap use back later

/-- Two line ends open no declaration. -/
theorem not_opensDeclaration (back : Text) : ¬OpensDeclaration (newline ++ newline ++ back) := by
  rintro ⟨between, start, rfl | rfl, rfl | rfl, behind, equal⟩ <;>
    rcases ending with rfl | rfl <;> simp at equal

/-- A result starts as the text did, or with a line end and `use`. -/
theorem separateImports_cases (text : Text) :
    separateImports newline text = [] ∨
    (∃ c rest, text = c :: rest ∧
      separateImports newline text = c :: separateImports newline rest) ∨
    ∃ before back, IsLineEnd before ∧ separateImports newline text = before ++ 'u' :: back := by
  refine separateImports_induction ending (motive := fun text separated => separated = [] ∨
    (∃ c rest, text = c :: rest ∧ separated = c :: separateImports newline rest) ∨
    ∃ before back, IsLineEnd before ∧ separated = before ++ 'u' :: back) (.inl rfl) ?_ ?_ text
  · intro c rest _ _
    exact .inr (.inl ⟨c, rest, rfl, rfl⟩)
  · intro use back _
    refine .inr (.inr ⟨use.before, "se".toList ++ use.names ++ ';' ::
      (newline ++ newline ++ (use.start ++ separateImports newline back)), use.isBefore, ?_⟩)
    simp [CrowdedUse.front]

/-- Front parts that hold no line end are copied. -/
theorem isPrefix_of_separateImports {part text : Text} (solid : ∀ c ∈ part, c ≠ '\n' ∧ c ≠ '\r')
    (front : part <+: separateImports newline text) : part <+: text := by
  induction part generalizing text with
  | nil => exact List.nil_prefix
  | cons first part ih =>
      obtain ⟨here, later⟩ := List.forall_mem_cons.1 solid
      rcases separateImports_cases ending text with
        nothing | ⟨c, rest, rfl, copied⟩ | ⟨before, back, isBefore, swapped⟩
      · simp [nothing] at front
      · rw [copied, List.cons_prefix_cons] at front
        exact List.cons_prefix_cons.2 ⟨front.1, ih later front.2⟩
      · rw [swapped] at front
        rcases isBefore with rfl | rfl <;> simp_all

omit ending in
theorem not_isPrefix_use {start : Text} (isStart : IsDeclarationStart start) (back : Text) :
    ¬start <+: 'u' :: back := by
  rcases isStart with rfl | rfl <;> simp

/-- What opens a declaration is copied too, because `use` starts none. -/
theorem isPrefix_of_separateImports_feed {start text : Text} (isStart : IsDeclarationStart start)
    (front : '\n' :: start <+: separateImports newline text) : '\n' :: start <+: text := by
  rcases separateImports_cases ending text with
    nothing | ⟨c, rest, rfl, copied⟩ | ⟨before, back, isBefore, swapped⟩
  · simp [nothing] at front
  · rw [copied, List.cons_prefix_cons] at front
    refine List.cons_prefix_cons.2 ⟨front.1, isPrefix_of_separateImports ending ?_ front.2⟩
    rcases isStart with rfl | rfl <;> simp
  · rw [swapped] at front
    rcases isBefore with rfl | rfl
    · exact absurd (List.cons_prefix_cons.1 front).2 (not_isPrefix_use isStart back)
    · simp at front

theorem opensDeclaration_of_separateImports {text : Text}
    (opens : OpensDeclaration (separateImports newline text)) : OpensDeclaration text := by
  obtain ⟨between, start, isBetween, isStart, front⟩ := opens
  refine ⟨between, start, isBetween, isStart, ?_⟩
  rcases isBetween with rfl | rfl
  · exact isPrefix_of_separateImports_feed ending isStart front
  rcases separateImports_cases ending text with
    nothing | ⟨c, rest, rfl, copied⟩ | ⟨before, back, isBefore, swapped⟩
  · simp [nothing] at front
  · rw [copied, List.cons_append, List.cons_prefix_cons] at front
    exact List.cons_prefix_cons.2
      ⟨front.1, isPrefix_of_separateImports_feed ending isStart front.2⟩
  · rw [swapped] at front
    rcases isBefore with rfl | rfl
    · simp at front
    · simp only [List.cons_append, List.nil_append, List.cons_prefix_cons, true_and] at front
      exact absurd front (not_isPrefix_use isStart back)

/-- Up to its first semicolon a text is copied. Behind it the result goes on with two line ends,
or as the result of what stands there. -/
theorem exists_of_separateImports_semicolon {text front back : Text} (absent : ';' ∉ front)
    (separated : separateImports newline text = front ++ ';' :: back) :
    ∃ rest, text = front ++ ';' :: rest ∧
      (back = separateImports newline rest ∨ ¬OpensDeclaration back) := by
  revert front
  refine separateImports_induction ending (motive := fun text separated => ∀ {front : Text},
    ';' ∉ front → separated = front ++ ';' :: back → ∃ rest, text = front ++ ';' :: rest ∧
      (back = separateImports newline rest ∨ ¬OpensDeclaration back)) ?_ ?_ ?_ text
  · simp
  · intro c rest _ ih front absent equal
    cases front with
    | nil =>
        obtain ⟨rfl, rfl⟩ := List.cons.inj equal
        exact ⟨rest, rfl, .inl rfl⟩
    | cons first front =>
        rw [List.mem_cons, not_or] at absent
        obtain ⟨rfl, tails⟩ := List.cons.inj equal
        obtain ⟨others, rfl, behind⟩ := ih absent.2 tails
        exact ⟨others, rfl, behind⟩
  · intro use behind _ front absent equal
    obtain ⟨rfl, rfl⟩ := Text.append_cons_inj_of_notMem use.semicolon_notMem_front absent equal
    exact ⟨use.between ++ use.start ++ behind, by simp [CrowdedUse.text],
      .inr (not_opensDeclaration ending _)⟩

omit ending in
/-- Nothing is crowded in front of a semicolon behind which no declaration opens. -/
theorem not_occursIn_append_semicolon {front back : Text} (absent : ';' ∉ front)
    (closed : ¬OpensDeclaration back) (behind : useThenDeclaration.occursIn back = false) :
    useThenDeclaration.occursIn (front ++ ';' :: back) = false := by
  induction front with
  | nil => exact Form.occursIn_cons_eq_false.2 ⟨rfl, behind⟩
  | cons c front ih =>
      refine Form.occursIn_cons_eq_false.2 ⟨?_, ih fun member => absent (by simp [member])⟩
      rw [← Option.not_isSome_iff_eq_none]
      intro read
      exact closed (opensDeclaration_of_read absent read).1

omit ending in
theorem not_occursIn_append_start {start back : Text} (isStart : IsDeclarationStart start)
    (behind : useThenDeclaration.occursIn back = false) :
    useThenDeclaration.occursIn (start ++ back) = false := by
  rcases isStart with rfl | rfl
  · exact Form.occursIn_cons_eq_false.2 ⟨rfl, Form.occursIn_cons_eq_false.2 ⟨rfl, behind⟩⟩
  · exact Form.occursIn_cons_eq_false.2 ⟨rfl, Form.occursIn_cons_eq_false.2
      ⟨rfl, Form.occursIn_cons_eq_false.2 ⟨rfl, behind⟩⟩⟩

/-- No import is left crowded. -/
theorem not_hasCrowdedUse_separateImports (text : Text) :
    ¬HasCrowdedUse (separateImports newline text) := by
  rw [not_hasCrowdedUse_iff]
  refine separateImports_induction ending
    (motive := fun _ separated => useThenDeclaration.occursIn separated = false) rfl ?_ ?_ text
  · intro c rest unread later
    refine Form.occursIn_cons_eq_false.2 ⟨?_, later⟩
    rw [← Option.not_isSome_iff_eq_none]
    intro read
    obtain ⟨use, back, equal⟩ := isSome_useThenDeclaration.1 read
    rw [CrowdedUse.text, List.append_assoc, List.cons_append] at equal
    have absent := use.semicolon_notMem_front
    -- The import stood in the text as it is, so the declaration behind it would be a new one.
    cases shape : use.front with
    | nil => simp [CrowdedUse.front] at shape
    | cons first front =>
        rw [shape] at equal absent
        obtain ⟨rfl, split⟩ := List.cons.inj equal
        rw [← equal] at read
        obtain ⟨opens, reads⟩ := opensDeclaration_of_read absent read
        obtain ⟨others, rfl, same | closed⟩ := exists_of_separateImports_semicolon ending
          (fun member => absent (by simp [member])) split.symm
        · rw [same] at opens
          have before := reads others (opensDeclaration_of_separateImports ending opens)
          rw [List.cons_append, unread] at before
          contradiction
        · exact closed opens
  · intro use back later
    refine not_occursIn_append_semicolon use.semicolon_notMem_front
      (not_opensDeclaration ending _) ?_
    have declared := not_occursIn_append_start use.isStart later
    rcases ending with rfl | rfl <;>
      simp only [Form.occursIn_cons_eq_false, List.cons_append, List.nil_append] <;>
      rcases use.isStart with start | start <;> rw [start] at declared ⊢
    · exact ⟨rfl, rfl, declared⟩
    · exact ⟨rfl, rfl, declared⟩
    · exact ⟨rfl, rfl, rfl, rfl, declared⟩
    · exact ⟨rfl, rfl, rfl, rfl, declared⟩

/-- Setting imports apart makes no run of line ends. -/
theorem useThenDeclaration_keepsRuns :
    useThenDeclaration.Replaces (Text.KeepsIn (¬HasBlankRun ·))
      (Template.expand ("${1}".toList ++ newline ++ newline ++ "${2}".toList)) := by
  intro text found read
  obtain ⟨nonempty, prefixed, -⟩ := useThenDeclaration_keepsBare ending text found read
  refine ⟨nonempty, prefixed, fun front back free => ?_⟩
  obtain ⟨use, -, -, rfl⟩ := exists_of_useThenDeclaration read
  rw [expand_separator ending]
  -- The line ends lie between a semicolon and a character that is in no line end.
  obtain ⟨first, rest, start, feed, carriage⟩ :
      ∃ first rest, use.start = first :: rest ∧ first ≠ '\n' ∧ first ≠ '\r' := by
    rcases use.isStart with start | start
    · exact ⟨'#', ['['], start, by decide, by decide⟩
    · exact ⟨'/', ['*', '*'], start, by decide, by decide⟩
  have old : front ++ use.text ++ back =
      (front ++ use.front) ++ ';' :: (use.between ++ first :: (rest ++ back)) := by
    simp [CrowdedUse.text, start]
  have new : front ++ (use.front ++ [';'] ++ newline ++ newline ++ use.start) ++ back =
      (front ++ use.front) ++ ';' :: (newline ++ newline ++ first :: (rest ++ back)) := by
    simp [start]
  have two : ¬HasBlankRun (newline ++ newline) := by
    rw [not_hasBlankRun_iff]
    rcases ending with rfl | rfl <;> rfl
  rw [old, hasBlankRun_append_cons (by decide) (by decide),
    hasBlankRun_append_cons feed carriage] at free
  rw [new, hasBlankRun_append_cons (by decide) (by decide), hasBlankRun_append_cons feed carriage]
  tauto

end Separate

/-! ## Dropping the empty end of a doc comment -/

theorem emptyDocEnd_keepsRuns :
    emptyDocEnd.Replaces (Text.KeepsIn (¬HasBlankRun ·)) fun _ => " */".toList := by
  intro text found read
  obtain ⟨gap, behind, rfl, -, whole⟩ := emptyDocEnd_eq_some read
  refine ⟨by simp, ⟨behind, whole⟩, fun front back free => ?_⟩
  have old : front ++ (" *".toList ++ gap ++ "*/".toList) ++ back =
      (front ++ ' ' :: '*' :: (gap ++ ['*'])) ++ '/' :: back := by simp
  have new : front ++ " */".toList ++ back = (front ++ ' ' :: ['*']) ++ '/' :: back := by simp
  have star : ¬HasBlankRun ['*'] := not_hasBlankRun_iff.2 rfl
  change ¬HasBlankRun (front ++ " */".toList ++ back)
  rw [old, hasBlankRun_append_cons (by decide) (by decide),
    hasBlankRun_append_cons (by decide) (by decide)] at free
  rw [new, hasBlankRun_append_cons (by decide) (by decide),
    hasBlankRun_append_cons (by decide) (by decide)]
  tauto

/-- An import that crowds a declaration still does with more text behind a space of it. -/
theorem isSome_useThenDeclaration_insert {front middle back : Text} (absent : ';' ∉ middle)
    (read : (useThenDeclaration (front ++ ' ' :: back)).isSome) :
    (useThenDeclaration (front ++ ' ' :: (middle ++ back))).isSome := by
  obtain ⟨use, behind, split⟩ := isSome_useThenDeclaration.1 read
  rw [CrowdedUse.text, List.append_assoc, List.cons_append] at split
  rcases List.append_eq_append_iff.1 split with ⟨excess, rfl, rest⟩ | ⟨excess, shape, rest⟩
  · -- The semicolon stands in front of the space, and so does all that opens the declaration.
    cases excess with
    | nil => simp at rest
    | cons c excess =>
        obtain ⟨rfl, tails⟩ := List.cons.inj rest
        have opening : use.between ++ use.start <+: excess := by
          refine Text.isPrefix_of_append_cons (c := ' ') ?_ ⟨behind, tails⟩
          rcases use.isBetween with between | between <;>
            rcases use.isStart with start | start <;> rw [between, start] <;> decide
        obtain ⟨others, rfl⟩ := opening
        refine isSome_useThenDeclaration.2 ⟨use, others ++ ' ' :: (middle ++ back), ?_⟩
        simp [CrowdedUse.text]
  · -- The space stands in the names, and what is put behind it makes them longer.
    cases excess with
    | nil => simp at rest
    | cons c excess =>
        obtain ⟨rfl, rfl⟩ := List.cons.inj rest
        have keyword : use.before ++ "use".toList <+: front := by
          refine Text.isPrefix_of_append_cons (c := ' ') ?_ ⟨use.names, shape⟩
          rcases use.isBefore with before | before <;> rw [before] <;> decide
        obtain ⟨names, rfl⟩ := keyword
        have single := use.semicolon_notMem_front
        rw [shape] at single
        refine isSome_useThenDeclaration.2
          ⟨{ use with
              names := names ++ ' ' :: (middle ++ excess)
              named := by simp
              single := by simp_all }, behind, ?_⟩
        simp [CrowdedUse.text, CrowdedUse.front]

theorem occursIn_useThenDeclaration_insert {front middle back : Text} (absent : ';' ∉ middle)
    (occurs : useThenDeclaration.occursIn (front ++ ' ' :: back)) :
    useThenDeclaration.occursIn (front ++ ' ' :: (middle ++ back)) := by
  induction front with
  | nil =>
      have later : useThenDeclaration.occursIn back := by
        rwa [List.nil_append, Form.occursIn_cons] at occurs
      exact Form.occursIn_append later (' ' :: middle)
  | cons c front ih =>
      have here : (useThenDeclaration (c :: front ++ ' ' :: back)).isSome →
          (useThenDeclaration (c :: front ++ ' ' :: (middle ++ back))).isSome :=
        isSome_useThenDeclaration_insert absent
      rw [List.cons_append, Form.occursIn_cons, Bool.or_eq_true] at occurs ⊢
      exact occurs.imp here ih

theorem emptyDocEnd_keepsUses :
    emptyDocEnd.Replaces (Text.KeepsIn (¬HasCrowdedUse ·)) fun _ => " */".toList := by
  intro text found read
  obtain ⟨gap, behind, rfl, blank, whole⟩ := emptyDocEnd_eq_some read
  refine ⟨by simp, ⟨behind, whole⟩, fun front back free crowded => free ?_⟩
  have absent : ';' ∉ '*' :: gap := by
    intro member
    rcases List.mem_cons.1 member with same | inside
    · exact absurd same (by decide)
    · exact absurd (List.all_eq_true.1 blank _ inside) (by decide)
  rw [hasCrowdedUse_iff] at crowded ⊢
  have inserted :
      useThenDeclaration.occursIn (front ++ ' ' :: ('*' :: gap ++ '*' :: '/' :: back)) :=
    occursIn_useThenDeclaration_insert absent (by simpa using crowded)
  simpa using inserted

/-! ## Without line ends -/

/-- The text without carriage returns and line feeds. -/
def unbroken (text : Text) : Text :=
  text.filter fun c => c != '\r' && c != '\n'

theorem unbroken_append (left right : Text) :
    unbroken (left ++ right) = unbroken left ++ unbroken right :=
  List.filter_append left right

theorem unbroken_lineEnd {ending : Text} (isEnd : IsLineEnd ending) : unbroken ending = [] := by
  rcases isEnd with rfl | rfl <;> rfl

theorem congruence_unbroken : Text.Congruence fun old new => unbroken new = unbroken old where
  refl _ := rfl
  trans first second := second.trans first
  append left right := by rw [unbroken_append, unbroken_append, left, right]

section Passes

variable {newline : Text} (ending : IsLineEnd newline)

include ending

theorem blankRun_keepsUnbroken :
    blankRun.Replaces (fun old new => unbroken new = unbroken old)
      (Template.expand (newline ++ newline)) := by
  intro text found read
  obtain ⟨nonempty, prefixed⟩ := reads_blankRun text found read
  refine ⟨nonempty, prefixed, ?_⟩
  obtain ⟨rfl, -⟩ := blankRun_eq_some read
  have nothing : unbroken (lineEnds text).flatten = [] := by
    rw [unbroken, List.filter_flatten, List.flatten_eq_nil_iff]
    intro part member
    obtain ⟨ending, isEnd, rfl⟩ := List.mem_map.1 member
    exact unbroken_lineEnd (isLineEnd_of_mem_lineEnds isEnd)
  rw [expand_newlines ending, unbroken_append, unbroken_lineEnd ending, nothing]
  rfl

theorem unbroken_separateImports (text : Text) :
    unbroken (separateImports newline text) = unbroken text := by
  refine separateImports_induction ending
    (motive := fun text separated => unbroken separated = unbroken text) rfl ?_ ?_ text
  · intro c rest _ later
    exact congruence_unbroken.append (congruence_unbroken.refl [c]) later
  · intro use back later
    have apart : unbroken (newline ++ newline ++ (use.start ++ separateImports newline back)) =
        unbroken (use.between ++ use.start ++ back) := by
      simp only [unbroken_append, unbroken_lineEnd ending, unbroken_lineEnd use.isBetween, later,
        List.nil_append]
    have front := congruence_unbroken.refl (use.front ++ [';'])
    simpa [CrowdedUse.text] using congruence_unbroken.append front apart

/-- Normal layout leaves no crowded import. It leaves no run of line ends either, unless single line
feeds are put behind a carriage return of its own, and so its first two passes change nothing more.
They only write line ends. -/
theorem normalizeSegment_settles (text : Text) :
    (HasBlankRun (collapseBlankLines newline text) ↔ newline = ['\n'] ∧ HasReturnRun text) ∧
    (¬(newline = ['\n'] ∧ HasReturnRun text) →
      ¬HasBlankRun (normalizeSegment newline text) ∧
      collapseBlankLines newline (normalizeSegment newline text) = normalizeSegment newline text) ∧
    ¬HasCrowdedUse (normalizeSegment newline text) ∧
    separateImports newline (normalizeSegment newline text) = normalizeSegment newline text ∧
    unbroken (separateImports newline (collapseBlankLines newline text)) = unbroken text := by
  have runs :
      HasBlankRun (collapseBlankLines newline text) ↔ newline = ['\n'] ∧ HasReturnRun text :=
    hasBlankRun_collapseBlankLines_iff ending
  have uses : ¬HasCrowdedUse (normalizeSegment newline text) := by
    have separated := not_hasCrowdedUse_separateImports ending (collapseBlankLines newline text)
    exact (emptyDocEnd_keepsUses.rel_replaceAll (Text.congruence_keepsIn _) _).keeps separated
  refine ⟨runs, fun apart => ?_, uses, ?_, ?_⟩
  · have collapsed := runs.not.2 apart
    have separated : ¬HasBlankRun (separateImports newline (collapseBlankLines newline text)) :=
      ((useThenDeclaration_keepsRuns ending).rel_replaceAll (Text.congruence_keepsIn _) _).keeps
        collapsed
    have tidied : ¬HasBlankRun (normalizeSegment newline text) :=
      (emptyDocEnd_keepsRuns.rel_replaceAll (Text.congruence_keepsIn _) _).keeps separated
    exact ⟨tidied, Form.replaceAll_eq_self (not_hasBlankRun_iff.1 tidied)⟩
  · exact Form.replaceAll_eq_self (not_hasCrowdedUse_iff.1 uses)
  · rw [unbroken_separateImports ending]
    exact (blankRun_keepsUnbroken ending).rel_replaceAll congruence_unbroken text

end Passes

/-- Mixed line ends, an import in front of an attribute, and single line feeds. -/
theorem normalizeSegment_settles_mixed :
    let text := "<?php\r\n\n\r\n\nuse A;\r\n#[B]".toList
    let normal := "<?php\n\nuse A;\n\n#[B]".toList
    IsLineEnd ['\n'] ∧ ¬HasReturnRun text ∧ normalizeSegment ['\n'] text = normal ∧
      ¬HasBlankRun normal ∧ collapseBlankLines ['\n'] normal = normal ∧ ¬HasCrowdedUse normal ∧
      separateImports ['\n'] normal = normal := by
  intro text normal
  have result : normalizeSegment ['\n'] text = normal := by decide +kernel
  obtain ⟨runs, kept, uses, separated, -⟩ := normalizeSegment_settles (.inl rfl) text
  have apart : ¬HasReturnRun text := fun has =>
    not_hasBlankRun_iff.2 (by decide +kernel) (runs.2 ⟨rfl, has⟩)
  obtain ⟨free, collapsed⟩ := kept fun both => apart both.2
  rw [result] at free collapsed uses separated
  exact ⟨.inl rfl, apart, result, free, collapsed, uses, separated⟩

/-- A carriage return of its own pairs with a line feed that replaces a run of pairs. -/
theorem lone_return_makes_run :
    let text := "a\n\r\r\n\r\n\r\nb".toList
    normalizeSegment ['\n'] text = "a\n\r\n\nb".toList ∧
      HasBlankRun (normalizeSegment ['\n'] text) ∧
      collapseBlankLines ['\n'] (normalizeSegment ['\n'] text) ≠ normalizeSegment ['\n'] text := by
  intro text
  have result : normalizeSegment ['\n'] text = "a\n\r\n\nb".toList := by decide +kernel
  rw [result]
  exact ⟨rfl, hasBlankRun_iff.2 (by decide +kernel), by decide +kernel⟩

end Layout

end TagLift
