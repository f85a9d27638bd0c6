import TagLift.Proofs.Migration.Printable
import TagLift.Run.Basic
import Mathlib.Data.List.Nodup
import Mathlib.Data.List.TakeWhile

/-!
# Runs over many files

The files of a run are migrated one after the other, and the first that fails ends the run. What a
run does is told by the files as they were before it: writing one file changes no other, so each
file is read as it was when the run began. A dry run therefore ends as the real one does.

Nothing is asked of the tools of a run: all this holds whatever the parser accepts, whatever the
patterns mean and in whatever order the files are walked. Files fail in two ways. Mostly the run
returns the error of the first file that fails, but where printing that file panics, so does the
run.
-/

namespace TagLift

/-- A source is migrated as its tree is. -/
theorem migrateSource_of_parse {parse : Parser} {source : Text} {root : Node}
    (parsed : parse source = .ok root) :
    migrateSource parse source = (migrateTree source root).mapError (.map .unprintable) := by
  rw [migrateSource, parsed]
  rfl

theorem migrateSource_eq_panic_iff {parse : Parser} {source : Text} :
    migrateSource parse source = .error .panic ↔
      ∃ root, parse source = .ok root ∧ migrateTree source root = .error .panic := by
  cases parsed : parse source with
  | error cause => simp [migrateSource, parsed, Except.mapError, bind, Except.bind]
  | ok root =>
      rw [migrateSource_of_parse parsed]
      match outcome : migrateTree source root with
      | .ok migrated => simp [outcome, Except.mapError]
      | .error (.error cause) => simp [outcome, Except.mapError, Halt.map]
      | .error .panic => simp [outcome, Except.mapError, Halt.map]

/-- The tools of the command, with the tree of one source given. -/
def Tools.withTree (source : Text) (root : Node) : Tools :=
  { Tools.standard with
    parse := fun text => if text = source then .ok root else Node.ofSource text }

theorem Tools.parse_withTree (source : Text) (root : Node) :
    (Tools.withTree source root).parse source = .ok root :=
  if_pos rfl

namespace FileSystem

variable {files after : FileSystem} {place other : Place} {content : Content} {text : Text}

/-! ## Writing a file -/

theorem exists_find?_of_entry? (present : files.entry? place = some (.file content)) :
    ∃ entry, files.entries.find? (·.1 == place) = some entry ∧ entry.1 = place := by
  unfold entry? at present
  split at present
  next found entry search => exact ⟨_, search, by simpa using List.find?_some search⟩
  next => split at present <;> cases present

/-- An entry, with another one in its place if it stands at a place. -/
def replaceAt (place : Place) (entry : Entry) (old : Place × Entry) : Place × Entry :=
  (old.1, if old.1 = place then entry else old.2)

/-- Writing to a file that is there replaces what the file holds. -/
theorem entries_write (present : files.entry? place = some (.file content)) (text : Text) :
    (files.write place text).entries =
      files.entries.map (replaceAt place (.file (.text text))) := by
  obtain ⟨entry, search, here⟩ := exists_find?_of_entry? present
  have listed : files.entries.any (·.1 == place) :=
    List.any_eq_true.2 ⟨entry, List.mem_of_find?_eq_some search, by simpa using here⟩
  rw [write, put, if_pos listed]
  apply List.map_congr_left
  intro old _
  by_cases same : old.1 = place
  · simp [replaceAt, same]
  · simp [replaceAt, same]

/-- What stands at a place after writing to a file that is there. -/
theorem entry?_write (present : files.entry? place = some (.file content)) (text : Text)
    (other : Place) :
    entry? (files.write place text) other =
      if other = place then some (.file (.text text)) else files.entry? other := by
  have sameKeys (p : Place → Bool) : ((fun entry : Place × Entry => p entry.1) ∘
      replaceAt place (.file (.text text))) = fun entry => p entry.1 := rfl
  unfold entry?
  rw [entries_write present, List.find?_map, sameKeys (· == other), List.any_map,
    sameKeys other.isPrefixOf]
  cases search : files.entries.find? (·.1 == other) with
  | some entry =>
      have here : entry.1 = other := by simpa using List.find?_some search
      rw [Option.map_some]
      by_cases same : other = place
      · simp [replaceAt, here, same]
      · simp [replaceAt, here, same]
  | none =>
      have different : other ≠ place := by
        rintro rfl
        obtain ⟨entry, found, -⟩ := exists_find?_of_entry? present
        rw [search] at found
        cases found
      rw [if_neg different]
      rfl

/-! ## One file -/

section File

variable (parse : Parser)

/-- The text that the file at a place is migrated to. There is none if no file is there, or if what
the file holds is no text, no PHP code, or cannot be printed. -/
def newText? (files : FileSystem) (place : Place) : Option Text :=
  match files.entry? place with
  | some (.file (.text source)) => (migrateSource parse source).toOption.map (·.printed.text)
  | _ => none

/-- Whether the file at a place is migrated to another text than it holds. -/
def changes (files : FileSystem) (place : Place) : Bool :=
  (files.newText? parse place).any fun text => files.entry? place != some (.file (.text text))

/-- What ends a run at the file at a place, if something does. -/
def halt? (files : FileSystem) (place : Place) : Option (Halt RunError) :=
  match files.migrated parse place.toPath place with
  | .error halt => some halt
  | .ok _ => none

/-- The files after the file at a place was migrated to a text. -/
def afterFile (files : FileSystem) (dryRun : Bool) (place : Place) (text : Text) : FileSystem :=
  if files.changes parse place && !dryRun then files.write place text else files

variable {parse}

theorem newText?_of_text {source : Text}
    (present : files.entry? place = some (.file (.text source))) :
    files.newText? parse place = (migrateSource parse source).toOption.map (·.printed.text) := by
  rw [newText?, present]

/-- A file that is read as a tree is migrated to what is printed for the tree. -/
theorem newText?_of_print {source : Text} {root : Node} {printed : Printed}
    (present : files.entry? place = some (.file (.text source))) (parsed : parse source = .ok root)
    (done : SourceUnit.print source (.ofTree source root)
      (SourceUnit.ofTree source root).migrateAndResolve.1 = .ok printed) :
    files.newText? parse place = some printed.text := by
  rw [newText?_of_text present, migrateSource_of_parse parsed, migrateTree_eq_map, done]
  rfl

theorem migrated_of_text {source : Text}
    (present : files.entry? place = some (.file (.text source))) (path : Text) :
    files.migrated parse path place =
      ((migrateSource parse source).mapError (.map (.source path))).map fun result =>
        (result.printed.text, result.printed.text != source) := by
  rw [migrated, read, present]
  rfl

theorem exists_text_of_newText? (new : files.newText? parse place = some text) :
    ∃ source result, files.entry? place = some (.file (.text source)) ∧
      migrateSource parse source = .ok result ∧ result.printed.text = text := by
  rw [newText?] at new
  split at new
  next source present =>
    cases outcome : migrateSource parse source with
    | error cause =>
        rw [outcome] at new
        cases new
    | ok result =>
        rw [outcome] at new
        exact ⟨source, result, present, outcome, Option.some.inj new⟩
  next => cases new

/-- A file with a new text is migrated to it. -/
theorem migrated_of_newText? (new : files.newText? parse place = some text) (path : Text) :
    files.migrated parse path place = .ok (text, files.changes parse place) := by
  obtain ⟨source, result, present, outcome, rfl⟩ := exists_text_of_newText? new
  have differs : (result.printed.text != source) = files.changes parse place := by
    rw [changes, new, present, Option.any_some, Bool.eq_iff_iff]
    simp only [bne_iff_ne, ne_eq, Option.some.injEq, Entry.file.injEq, Content.text.injEq]
    exact not_congr eq_comm
  rw [migrated_of_text present, outcome, ← differs]
  rfl

theorem migrated_of_no_text (parse : Parser)
    (absent : ∀ source, files.entry? place ≠ some (.file (.text source))) (path : Text) :
    ∃ error, files.migrated parse path place = .error (.error error) := by
  match present : files.entry? place with
  | none => exact ⟨.unreadable path .missing, by rw [migrated, read, present]; rfl⟩
  | some .directory => exact ⟨.unreadable path .isDirectory, by rw [migrated, read, present]; rfl⟩
  | some (.file (.binary _)) => exact ⟨.notUtf8 path, by rw [migrated, read, present]; rfl⟩
  | some (.file (.text source)) => exact absurd present (absent source)

/-- A file without a new text ends the run. -/
theorem migrated_of_newText?_eq_none (missing : files.newText? parse place = none)
    (path : Text) : ∃ halt, files.migrated parse path place = .error halt := by
  by_cases text : ∃ source, files.entry? place = some (.file (.text source))
  · obtain ⟨source, present⟩ := text
    rw [newText?_of_text present, Option.map_eq_none_iff] at missing
    cases outcome : migrateSource parse source with
    | ok result =>
        rw [outcome] at missing
        cases missing
    | error cause =>
        rw [migrated_of_text present, outcome]
        exact ⟨cause.map (.source path), rfl⟩
  · obtain ⟨error, failed⟩ := migrated_of_no_text parse (not_exists.1 text) path
    exact ⟨.error error, failed⟩

theorem halt?_eq_none_iff :
    files.halt? parse place = none ↔ (files.newText? parse place).isSome := by
  cases new : files.newText? parse place with
  | none =>
      obtain ⟨halt, failed⟩ := migrated_of_newText?_eq_none new place.toPath
      simp [halt?, failed]
  | some text => simp [halt?, migrated_of_newText? new]

theorem halt?_eq_panic_iff_of_text {source : Text}
    (present : files.entry? place = some (.file (.text source))) :
    files.halt? parse place = some .panic ↔ migrateSource parse source = .error .panic := by
  rw [halt?, migrated_of_text present]
  match migrateSource parse source with
  | .ok result => simp [Except.mapError, Except.map]
  | .error (.error cause) => simp [Except.mapError, Except.map, Halt.map]
  | .error .panic => simp [Except.mapError, Except.map, Halt.map]

/-- A file ends the run in a panic exactly if it is read as a tree whose migration panics. -/
theorem halt?_eq_panic_iff :
    files.halt? parse place = some .panic ↔
      ∃ source root, files.entry? place = some (.file (.text source)) ∧ parse source = .ok root ∧
        migrateTree source root = .error .panic := by
  constructor
  · intro panics
    by_cases text : ∃ source, files.entry? place = some (.file (.text source))
    · obtain ⟨source, present⟩ := text
      obtain ⟨root, parsed, panics⟩ :=
        migrateSource_eq_panic_iff.1 ((halt?_eq_panic_iff_of_text present).1 panics)
      exact ⟨source, root, present, parsed, panics⟩
    · obtain ⟨error, failed⟩ := migrated_of_no_text parse (not_exists.1 text) place.toPath
      simp [halt?, failed] at panics
  · rintro ⟨source, root, present, parsed, panics⟩
    exact (halt?_eq_panic_iff_of_text present).2
      (migrateSource_eq_panic_iff.2 ⟨root, parsed, panics⟩)

/-- Only the file at the place is another one then, and in a dry run not even that. -/
theorem entry?_afterFile (new : files.newText? parse place = some text) (dryRun : Bool)
    (other : Place) :
    entry? (files.afterFile parse dryRun place text) other =
      if dryRun = false ∧ other = place then some (.file (.text text))
      else files.entry? other := by
  obtain ⟨source, result, present, -, -⟩ := exists_text_of_newText? new
  cases dryRun with
  | true => simp [afterFile]
  | false =>
      cases changed : files.changes parse place with
      | true => simp [afterFile, changed, entry?_write present]
      | false =>
          have same : files.entry? place = some (.file (.text text)) := by
            simpa [changes, new] using changed
          by_cases here : other = place
          · simp [afterFile, changed, here, same]
          · simp [afterFile, changed, here]

theorem migrateAt_of_newText? (new : files.newText? parse place = some text) (dryRun : Bool)
    (path : Text) :
    ∃ outcome, files.migrateAt parse dryRun path place =
        .ok (outcome, files.afterFile parse dryRun place text) ∧
      (outcome = .unchanged ↔ files.changes parse place = false) := by
  rw [migrateAt, migrated_of_newText? new, afterFile]
  cases files.changes parse place with
  | false => exact ⟨.unchanged, rfl, by simp⟩
  | true =>
      cases dryRun with
      | true => exact ⟨.wouldChange, rfl, by simp⟩
      | false => exact ⟨.written, rfl, by simp⟩

theorem migrateAt_of_error {path : Text} {halt : Halt RunError}
    (failed : files.migrated parse path place = .error halt) (dryRun : Bool) :
    files.migrateAt parse dryRun path place = .error halt := by
  rw [migrateAt, failed]
  rfl

end File

/-! ## A list of files -/

/-- A summary with one more file, which changes or does not. -/
def tally (changed : Bool) (summary : Summary) : Summary :=
  ⟨summary.processed + 1, if changed then summary.changed + 1 else summary.changed⟩

section Places

variable (parse : Parser)

/-- The places in front of the first whose file fails. -/
def beforeFailure (files : FileSystem) (places : List Place) : List Place :=
  places.takeWhile fun place => (files.newText? parse place).isSome

/-- How a run over the files at some places ends if each is read as it was at the start: as the
first that fails says, or with the number of files and of those that change. -/
def verdict (files : FileSystem) (places : List Place) : Except (Halt RunError) Summary :=
  match places.findSome? (files.halt? parse) with
  | some halt => .error halt
  | none => .ok ⟨places.length, places.countP (files.changes parse)⟩

variable {parse} {places : List Place}

theorem exists_newText?_of_mem_beforeFailure (member : place ∈ files.beforeFailure parse places) :
    ∃ text, files.newText? parse place = some text := by
  have passed := List.mem_takeWhile_imp member
  exact Option.isSome_iff_exists.1 passed

theorem verdict_cons_of_error {halt : Halt RunError}
    (failed : files.migrated parse place.toPath place = .error halt) (places : List Place) :
    files.verdict parse (place :: places) = .error halt := by
  simp [verdict, halt?, failed]

theorem verdict_cons_of_newText? (new : files.newText? parse place = some text)
    (places : List Place) :
    files.verdict parse (place :: places) =
      (files.verdict parse places).map (tally (files.changes parse place)) := by
  have passes : files.halt? parse place = none := halt?_eq_none_iff.2 (by simp [new])
  rw [verdict, verdict, List.findSome?_cons, passes, List.countP_cons]
  cases places.findSome? (files.halt? parse) with
  | some halt => rfl
  | none =>
      cases files.changes parse place with
      | true => rfl
      | false => rfl

theorem verdict_eq_error_iff {halt : Halt RunError} :
    files.verdict parse places = .error halt ↔
      places.findSome? (files.halt? parse) = some halt := by
  rw [verdict]
  cases places.findSome? (files.halt? parse) with
  | none => simp
  | some first => simp

theorem exists_halt?_iff :
    (∃ halt, places.findSome? (files.halt? parse) = some halt) ↔
      ∃ place ∈ places, files.newText? parse place = none := by
  rw [← Option.isSome_iff_exists, List.findSome?_isSome_iff]
  simp only [Option.isSome_iff_ne_none, ne_eq, halt?_eq_none_iff, Classical.not_not]

theorem verdict_of_forall_isSome
    (all : ∀ place ∈ places, (files.newText? parse place).isSome) :
    files.verdict parse places = .ok ⟨places.length, places.countP (files.changes parse)⟩ := by
  have passes : places.findSome? (files.halt? parse) = none := by
    apply List.findSome?_eq_none_iff.2
    intro place member
    exact halt?_eq_none_iff.2 (all place member)
  rw [verdict, passes]

end Places

section Agreeing

variable {parse : Parser} {start : FileSystem} {places : List Place}

theorem newText?_of_agree (agree : files.entry? place = start.entry? place) :
    files.newText? parse place = start.newText? parse place := by
  rw [newText?, newText?, agree]

theorem migrated_of_agree (agree : files.entry? place = start.entry? place) (path : Text) :
    files.migrated parse path place = start.migrated parse path place := by
  rw [migrated, migrated, read, read, agree]

theorem changes_of_agree (agree : files.entry? place = start.entry? place) :
    files.changes parse place = start.changes parse place := by
  rw [changes, changes, newText?_of_agree agree, agree]

/-- Migrating one file leaves the files to come as they were at the start. -/
theorem agree_afterFile (new : files.newText? parse place = some text) (dryRun : Bool)
    (distinct : (place :: places).Nodup)
    (agree : ∀ other ∈ place :: places, files.entry? other = start.entry? other) :
    ∀ other ∈ places,
      entry? (files.afterFile parse dryRun place text) other = start.entry? other := by
  intro other member
  have different : other ≠ place := by
    rintro rfl
    exact (List.nodup_cons.1 distinct).1 member
  rw [entry?_afterFile new, if_neg (fun both => different both.2)]
  exact agree other (List.mem_cons_of_mem place member)

theorem migrateAll_cons_of_error {halt : Halt RunError}
    (failed : files.migrated parse place.toPath place = .error halt) (dryRun : Bool)
    (places : List Place) :
    (files.migrateAll parse dryRun (place :: places)).result = .error halt ∧
      (files.migrateAll parse dryRun (place :: places)).files = files := by
  rw [migrateAll, migrateAt_of_error failed]
  exact ⟨rfl, rfl⟩

theorem migrateAll_cons_of_newText? (new : files.newText? parse place = some text) (dryRun : Bool)
    (places : List Place) :
    (files.migrateAll parse dryRun (place :: places)).result =
        ((files.afterFile parse dryRun place text).migrateAll parse dryRun places).result.map
          (tally (files.changes parse place)) ∧
      (files.migrateAll parse dryRun (place :: places)).files =
        ((files.afterFile parse dryRun place text).migrateAll parse dryRun places).files := by
  obtain ⟨outcome, step, unchanged⟩ := migrateAt_of_newText? new dryRun place.toPath
  have counted : Summary.count outcome = tally (files.changes parse place) := by
    funext summary
    cases changed : files.changes parse place with
    | true =>
        have written : outcome ≠ .unchanged := by simp [unchanged, changed]
        rw [Summary.count, if_neg written]
        rfl
    | false =>
        rw [Summary.count, if_pos (unchanged.2 changed)]
        rfl
  rw [migrateAll, step, ← counted]
  exact ⟨rfl, rfl⟩

/-- A run, dry or not, ends as the files at its start tell. -/
theorem result_migrateAll (dryRun : Bool) (distinct : places.Nodup)
    (agree : ∀ place ∈ places, files.entry? place = start.entry? place) :
    (files.migrateAll parse dryRun places).result = start.verdict parse places := by
  induction places generalizing files with
  | nil => rfl
  | cons place places ih =>
      have here := agree place List.mem_cons_self
      cases new : files.newText? parse place with
      | none =>
          obtain ⟨halt, failed⟩ := migrated_of_newText?_eq_none new place.toPath
          rw [(migrateAll_cons_of_error failed dryRun places).1,
            verdict_cons_of_error (migrated_of_agree here _ ▸ failed)]
      | some text =>
          have later := ih (List.nodup_cons.1 distinct).2
            (agree_afterFile new dryRun distinct agree)
          rw [(migrateAll_cons_of_newText? new dryRun places).1, later, changes_of_agree here,
            verdict_cons_of_newText? (newText?_of_agree here ▸ new)]

/-- A real run leaves the files in front of the first failure with their new texts, and all others
as they were. -/
theorem entry?_migrateAll (parse : Parser) (start : FileSystem) (distinct : places.Nodup)
    (agree : ∀ place ∈ places, files.entry? place = start.entry? place) (other : Place) :
    entry? (files.migrateAll parse false places).files other =
      if other ∈ start.beforeFailure parse places then
        (start.newText? parse other).map fun text => .file (.text text)
      else files.entry? other := by
  induction places generalizing files with
  | nil => rfl
  | cons place places ih =>
      have new' : files.newText? parse place = start.newText? parse place :=
        newText?_of_agree (agree place List.mem_cons_self)
      cases new : files.newText? parse place with
      | none =>
          obtain ⟨halt, failed⟩ := migrated_of_newText?_eq_none new place.toPath
          rw [(migrateAll_cons_of_error failed false places).2, beforeFailure,
            List.takeWhile_cons_of_neg (by simp [← new', new]), if_neg List.not_mem_nil]
      | some text =>
          have later := ih (List.nodup_cons.1 distinct).2
            (agree_afterFile new false distinct agree)
          rw [(migrateAll_cons_of_newText? new false places).2, later, entry?_afterFile new,
            beforeFailure, beforeFailure, List.takeWhile_cons_of_pos (by simp [← new', new])]
          by_cases here : other = place
          · subst here
            have notLater :
                other ∉ places.takeWhile fun place => (start.newText? parse place).isSome :=
              fun member => (List.nodup_cons.1 distinct).1
                ((List.takeWhile_sublist _).subset member)
            rw [if_neg notLater, if_pos ⟨rfl, rfl⟩, if_pos List.mem_cons_self, ← new', new]
            rfl
          · simp only [here, and_false, if_false, List.mem_cons, false_or]

theorem files_migrateAll_dryRun (files : FileSystem) (places : List Place) :
    (files.migrateAll parse true places).files = files := by
  induction places with
  | nil => rfl
  | cons place places ih =>
      cases new : files.newText? parse place with
      | none =>
          obtain ⟨halt, failed⟩ := migrated_of_newText?_eq_none new place.toPath
          exact (migrateAll_cons_of_error failed true places).2
      | some text =>
          have same : files.afterFile parse true place text = files := by simp [afterFile]
          rw [(migrateAll_cons_of_newText? new true places).2, same, ih]

end Agreeing

/-! ## A run -/

/-- What a real run and a dry run do with the files at some places. -/
structure BatchOutcome (parse : Parser) (files : FileSystem) (places : List Place)
    (real dry : Report) : Prop where
  /-- In front of the first failure every file has its new text. -/
  migrated : ∀ place ∈ files.beforeFailure parse places, ∃ text,
    files.newText? parse place = some text ∧ real.files.entry? place = some (.file (.text text))
  /-- The file that fails, those behind it and all others are as they were. -/
  kept : ∀ place ∉ files.beforeFailure parse places, real.files.entry? place = files.entry? place
  /-- The run gives no summary exactly if some file fails. -/
  fails_iff : (∃ halt, real.result = .error halt) ↔
    ∃ place ∈ places, files.newText? parse place = none
  /-- It ends as the first file that fails does. -/
  halt_iff : ∀ halt, real.result = .error halt ↔
    places.findSome? (files.halt? parse) = some halt
  /-- A file makes it panic exactly if the file is read as a tree whose migration panics. -/
  panic_iff : ∀ place, files.halt? parse place = some .panic ↔
    ∃ source root, files.entry? place = some (.file (.text source)) ∧ parse source = .ok root ∧
      migrateTree source root = .error .panic
  /-- That an error is returned exactly if some file fails is true exactly if the first file that
  fails does not panic. -/
  error_iff :
    ((∃ error, real.result = .error (.error error)) ↔
        ∃ place ∈ places, files.newText? parse place = none) ↔
      places.findSome? (files.halt? parse) ≠ some .panic
  /-- If no file fails, all files are counted, and those that change. -/
  summary : (∀ place ∈ places, (files.newText? parse place).isSome) →
    real.result = .ok ⟨places.length, places.countP (files.changes parse)⟩
  /-- The dry run changes nothing. -/
  dryFiles : dry.files = files
  /-- The dry run ends as the real one does. -/
  dryResult : dry.result = real.result

/-- An error is returned whenever a file fails, unless the run panics. -/
theorem exists_error_iff_iff {result : Except (Halt RunError) Summary} :
    ((∃ error, result = .error (.error error)) ↔ ∃ halt, result = .error halt) ↔
      result ≠ .error .panic := by
  match result with
  | .ok summary => simp
  | .error (.error cause) => simp
  | .error .panic => simp

/-- The last lines of a run change neither its result nor its files. -/
theorem run_eq {tools : Tools} {files : FileSystem} (options : RunOptions) {dir : Place}
    {places : List Place} (collected : files.collect tools options dir = .ok places) :
    (files.run tools options dir).result =
        (files.migrateAll tools.parse options.dryRun places).result ∧
      (files.run tools options dir).files =
        (files.migrateAll tools.parse options.dryRun places).files := by
  simp only [run, collected]
  split
  next summary ended => exact ⟨rfl, rfl⟩
  next => exact ⟨rfl, rfl⟩

/-- A run over distinct files migrates them up to the first that fails and touches no other file,
and a dry run tells how it ends. It returns an error if a file fails, unless it panics there. -/
theorem run_batchOutcome (tools : Tools) (files : FileSystem) (options : RunOptions) (dir : Place)
    {places : List Place} (collected : files.collect tools options dir = .ok places)
    (distinct : places.Nodup) :
    files.BatchOutcome tools.parse places (files.run tools { options with dryRun := false } dir)
      (files.run tools { options with dryRun := true } dir) := by
  obtain ⟨realResult, realFiles⟩ := run_eq { options with dryRun := false } collected
  obtain ⟨dryResult, dryFiles⟩ := run_eq { options with dryRun := true } collected
  have ended (dryRun : Bool) :
      (files.migrateAll tools.parse dryRun places).result = files.verdict tools.parse places :=
    result_migrateAll dryRun distinct fun _ _ => rfl
  have realEnded : (files.run tools { options with dryRun := false } dir).result =
      files.verdict tools.parse places := realResult.trans (ended false)
  have entries := entry?_migrateAll tools.parse files distinct fun _ _ => rfl
  have fails : (∃ halt, (files.run tools { options with dryRun := false } dir).result =
      .error halt) ↔ ∃ place ∈ places, files.newText? tools.parse place = none := by
    simp only [realEnded, verdict_eq_error_iff]
    exact exists_halt?_iff
  constructor
  case migrated =>
    intro place member
    obtain ⟨text, new⟩ := exists_newText?_of_mem_beforeFailure member
    refine ⟨text, new, ?_⟩
    rw [realFiles]
    exact (entries place).trans (by rw [if_pos member, new]; rfl)
  case kept =>
    intro place absent
    rw [realFiles]
    exact (entries place).trans (if_neg absent)
  case fails_iff => exact fails
  case halt_iff =>
    intro halt
    rw [realEnded]
    exact verdict_eq_error_iff
  case panic_iff => exact fun place => halt?_eq_panic_iff
  case error_iff =>
    rw [← fails, exists_error_iff_iff, realEnded]
    exact not_congr verdict_eq_error_iff
  case summary =>
    intro all
    exact realEnded.trans (verdict_of_forall_isSome all)
  case dryFiles =>
    rw [dryFiles]
    exact files_migrateAll_dryRun files places
  case dryResult =>
    rw [dryResult, realEnded]
    exact ended true

/-- If nothing is excluded and all extensions fit, all files that are walked are collected. -/
theorem collect_withTree (source : Text) (root : Node) {extensions : List Text} (dryRun : Bool)
    {dir : Place} {places : List Place} (walked : files.filesUnder dir = places)
    (wanted : ∀ place ∈ places, (place.getLast?.bind Path.extension?).any extensions.contains) :
    files.collect (.withTree source root) ⟨[], extensions, false, dryRun⟩ dir = .ok places := by
  have all : (files.walk false dir).filter (fun place =>
      ((place.getLast?.bind Path.extension?).any extensions.contains) &&
        !Exclusion.excludes ⟨[]⟩ place.toPath) = places := by
    simpa [walk, walked, Exclusion.excludes] using wanted
  rw [← all]
  rfl

/-- The first and the third file would get an import, an attribute and a shorter doc comment. The
second is no text, so the third is left alone. -/
theorem run_batchOutcome_of_three_files :
    ∃ (tools : Tools) (files : FileSystem) (options : RunOptions) (first second third : Place),
      files.collect tools options [] = .ok [first, second, third] ∧
      [first, second, third].Nodup ∧
      files.beforeFailure tools.parse [first, second, third] = [first] ∧
      files.changes tools.parse first ∧ files.changes tools.parse third ∧
      files.BatchOutcome tools.parse [first, second, third]
        (files.run tools { options with dryRun := false } [])
        (files.run tools { options with dryRun := true } []) := by
  let source := "<?php\nclass A \x7b\n    /**\n     * @test\n     */\n    ".toList ++
    "function t() \x7b\x7d\n\x7d\n".toList
  let new := "<?php\nuse PHPUnit\\Framework\\Attributes\\Test;\n\nclass A \x7b\n    /**\n".toList ++
    "     */\n    #[Test]\n    function t() \x7b\x7d\n\x7d\n".toList
  let mark (start stop : Nat) : Node := ⟨.other, ⟨start, stop⟩, false, []⟩
  let method : Node :=
    ⟨.method, ⟨49, 64⟩, true,
      [mark 49 57, ⟨.name, ⟨58, 59⟩, true, []⟩,
        ⟨.other, ⟨59, 61⟩, true, [mark 59 60, mark 60 61]⟩,
        ⟨.block, ⟨62, 64⟩, true, [⟨.openBrace, ⟨62, 63⟩, false, []⟩, mark 63 64]⟩]⟩
  let root : Node :=
    ⟨.other, ⟨0, 67⟩, true,
      [⟨.openTag, ⟨0, 5⟩, true, []⟩,
        ⟨.classDecl, ⟨6, 66⟩, true,
          [mark 6 11, ⟨.name, ⟨12, 13⟩, true, []⟩,
            ⟨.members, ⟨14, 66⟩, true,
              [⟨.openBrace, ⟨14, 15⟩, false, []⟩, ⟨.comment, ⟨20, 44⟩, true, []⟩, method,
                mark 65 66]⟩]⟩]⟩
  let tools : Tools := .withTree source root
  let files : FileSystem :=
    ⟨[(["a.php".toList], .file (.text source)), (["b.php".toList], .file (.binary [255])),
      (["c.php".toList], .file (.text source))], []⟩
  have parsed : tools.parse source = .ok root := Tools.parse_withTree source root
  have done : SourceUnit.print source (.ofTree source root)
      (SourceUnit.ofTree source root).migrateAndResolve.1 = .ok ⟨new, 3⟩ := by
    rw [SourceUnit.print_of_apply_eq_ok rfl
      (Edit.apply_of_pairwise (by decide +kernel) (by decide +kernel))]
    decide +kernel
  have differs : new ≠ source := by decide +kernel
  have collected : files.collect tools ⟨[], ["php".toList], false, false⟩ [] =
      .ok [["a.php".toList], ["b.php".toList], ["c.php".toList]] :=
    collect_withTree source root false (List.mergeSort_of_pairwise (by decide +kernel)) (by decide)
  have distinct : [["a.php".toList], ["b.php".toList], ["c.php".toList]].Nodup := by decide
  have first : files.newText? tools.parse ["a.php".toList] = some new :=
    newText?_of_print rfl parsed done
  have second : files.newText? tools.parse ["b.php".toList] = none := rfl
  have third : files.newText? tools.parse ["c.php".toList] = some new :=
    newText?_of_print rfl parsed done
  refine ⟨tools, files, _, _, _, _, collected, distinct, ?_, ?_, ?_,
    run_batchOutcome tools files _ [] collected distinct⟩
  · rw [beforeFailure, List.takeWhile_cons_of_pos (by rw [first]; rfl),
      List.takeWhile_cons_of_neg (by rw [second]; simp)]
  · rw [changes, first]
    simpa [files, entry?] using differs.symm
  · rw [changes, third]
    simpa [files, entry?] using differs.symm

/-- A file with a class inside a literal fails, and the run returns no error. -/
theorem run_panics_at_class_in_literal :
    ∃ (tools : Tools) (files : FileSystem) (options : RunOptions) (place : Place),
      files.collect tools options [] = .ok [place] ∧ files.newText? tools.parse place = none ∧
      (files.run tools options []).result = .error .panic := by
  let tools : Tools := .withTree ClassInLiteral.source ClassInLiteral.root
  let files : FileSystem := ⟨[(["a.php".toList], .file (.text ClassInLiteral.source))], []⟩
  have panics : files.halt? tools.parse ["a.php".toList] = some .panic :=
    halt?_eq_panic_iff.2 ⟨_, _, rfl, Tools.parse_withTree _ _, ClassInLiteral.migrateTree_panics⟩
  have collected : files.collect tools ⟨[], ["php".toList], false, false⟩ [] =
      .ok [["a.php".toList]] :=
    collect_withTree _ _ false (List.mergeSort_of_pairwise (by decide)) (by decide)
  have fails : files.newText? tools.parse ["a.php".toList] = none := by
    rw [← Option.not_isSome_iff_eq_none, ← halt?_eq_none_iff, panics]
    simp
  refine ⟨tools, files, _, _, collected, fails, ?_⟩
  rw [(run_eq _ collected).1, result_migrateAll _ (by decide) fun _ _ => rfl, verdict_eq_error_iff,
    List.findSome?_cons, panics]

end FileSystem

end TagLift
