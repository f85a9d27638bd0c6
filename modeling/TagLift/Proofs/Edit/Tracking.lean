import TagLift.Proofs.Edit.Apart
import TagLift.Proofs.Text.Bytes

/-!
# Bytes that no edit touches

A range of bytes that no edit reaches into is found again in the edited text, at the offset its
start is mapped to. In front of it stands the source up to the range with the edits that end there
or earlier, behind it the source from the range on with the other edits. The range may begin and
end inside a character, so all of this is said of bytes.
-/

namespace TagLift

namespace Edit

/-- The bytes `start` to `stop` of a source with edits written in the place of their spans, for
edits in order that lie in that range. -/
def rewriteBytes (source : Bytes) (start stop : Nat) : List Edit → Bytes
  | [] => source.slice start stop
  | edit :: edits =>
      source.slice start edit.start ++ edit.text.toBytes ++ rewriteBytes source edit.stop stop edits

namespace Chain

variable {source : Text} {offset : Nat} {edits : List Edit}

/-- The sweep over the characters writes what the rewriting of the bytes does. -/
theorem toBytes_sweep (chain : Chain source offset edits)
    (here : Text.isBoundary offset source) :
    (sweep offset (Text.dropBytes offset source) edits).toBytes =
      rewriteBytes source.toBytes offset source.byteSize edits := by
  induction edits generalizing offset with
  | nil =>
      have inside := Text.le_byteSize_of_isBoundary here
      have rest : Text.dropBytes offset source = Text.slice offset source.byteSize source := by
        have cut := Text.slice_append_dropBytes here inside
        have none : Text.dropBytes source.byteSize source = [] := by
          simpa using Text.dropBytes_append source []
        rw [← cut, none, List.append_nil]
      rw [sweep, rewriteBytes, rest]
      exact Text.toBytes_slice here (Text.isBoundary_byteSize source) inside
  | cons edit edits ih =>
      obtain ⟨starts, valid, rest⟩ := chain
      obtain ⟨-, start, stop⟩ := inBounds_iff.1 valid
      rw [sweep_cons here ⟨starts, valid, rest⟩, Text.toBytes_append, Text.toBytes_append,
        Text.toBytes_slice here start starts, ih rest stop, rewriteBytes]

/-- In front of an edit the rewriting may pause anywhere. -/
theorem rewriteBytes_pause {pause : Nat} (chain : Chain source pause edits)
    (order : offset ≤ pause) (bytes : Bytes) {stop : Nat} (inside : pause ≤ stop) :
    rewriteBytes bytes offset stop edits =
      bytes.slice offset pause ++ rewriteBytes bytes pause stop edits := by
  cases edits with
  | nil => rw [rewriteBytes, rewriteBytes, Bytes.slice_append_slice bytes order inside]
  | cons edit edits =>
      rw [rewriteBytes, rewriteBytes, ← Bytes.slice_append_slice bytes order chain.1]
      simp only [List.append_assoc]

/-- Around a range that no edit reaches into, the rewriting falls into the edits in front of the
range, the range and the edits behind it. -/
theorem rewriteBytes_around (chain : Chain source offset edits) (bytes : Bytes)
    {start stop : Nat} (before : offset ≤ start) (order : start ≤ stop) {final : Nat}
    (inside : stop ≤ final)
    (clear : ∀ edit ∈ edits, edit.stop ≤ start ∨ stop ≤ edit.start) :
    rewriteBytes bytes offset final edits =
      rewriteBytes bytes offset start (edits.filter (·.stop ≤ start)) ++
        bytes.slice start stop ++
        rewriteBytes bytes stop final (edits.filter (start < ·.stop)) := by
  induction edits generalizing offset with
  | nil =>
      simp only [List.filter_nil, rewriteBytes]
      rw [Bytes.slice_append_slice bytes before order,
        Bytes.slice_append_slice bytes (Nat.le_trans before order) inside]
  | cons edit edits ih =>
      obtain ⟨starts, valid, rest⟩ := chain
      have clear' : ∀ other ∈ edits, other.stop ≤ start ∨ stop ≤ other.start :=
        fun other member => clear other (by simp [member])
      by_cases done : edit.stop ≤ start
      · rw [List.filter_cons_of_pos (by simpa using done),
          List.filter_cons_of_neg (by simpa using done), rewriteBytes, rewriteBytes,
          ih rest done clear']
        simp only [List.append_assoc]
      · -- From here on every edit lies behind the range.
        have ahead : stop ≤ edit.start := (clear edit (by simp)).resolve_left done
        have behind : Chain source stop (edit :: edits) := ⟨ahead, valid, rest⟩
        obtain ⟨none, all⟩ := behind.filter_of_lt_stop (Nat.lt_of_not_le done)
        rw [none, all, behind.rewriteBytes_pause (Nat.le_trans before order) bytes inside,
          rewriteBytes, Bytes.slice_append_slice bytes before order]

/-- How many bytes a rewriting gives. -/
theorem length_rewriteBytes (chain : Chain source offset edits) {bytes : Bytes} {stop : Nat}
    (inside : stop ≤ bytes.length) (order : offset ≤ stop)
    (before : ∀ edit ∈ edits, edit.stop ≤ stop) :
    offset + (rewriteBytes bytes offset stop edits).length + removed edits =
      stop + written edits := by
  induction edits generalizing offset with
  | nil =>
      simp only [rewriteBytes, Bytes.length_slice inside, removed, written, List.map_nil,
        List.sum_nil]
      omega
  | cons edit edits ih =>
      obtain ⟨starts, valid, rest⟩ := chain
      have span := (inBounds_iff.1 valid).1
      have done := before edit (by simp)
      have size := ih rest done fun other member => before other (by simp [member])
      simp only [rewriteBytes, List.length_append, Text.length_toBytes, removed, written,
        List.map_cons, List.sum_cons,
        Bytes.length_slice (Nat.le_trans span (Nat.le_trans done inside))] at size ⊢
      omega

end Chain

/-- An offset is mapped to where the bytes in front of it end once they are rewritten. -/
theorem Chain.mapOffset?_eq_length {source : Text} {edits : List Edit}
    (chain : Chain source 0 (ordered edits)) {position : Nat}
    (inside : position ≤ source.byteSize) :
    mapOffset? edits position =
      some (rewriteBytes source.toBytes 0 position
        ((ordered edits).filter (·.stop ≤ position))).length := by
  have valid : ∀ edit ∈ edits, edit.inBounds source :=
    fun edit member => chain.inBounds (mem_ordered.2 member)
  have early : Chain source 0 ((ordered edits).filter (·.stop ≤ position)) :=
    chain.sublist List.filter_sublist
  have fits : position ≤ source.toBytes.length := by simpa using inside
  have size := early.length_rewriteBytes fits (Nat.zero_le position)
    fun edit member => by simpa using (List.mem_filter.1 member).2
  have perm : ((ordered edits).filter (·.stop ≤ position)).Perm
      (edits.filter (·.stop ≤ position)) := (List.mergeSort_perm edits precedes).filter _
  rw [removed_eq_of_perm perm, written_eq_of_perm perm] at size
  rw [mapOffset?_eq_some valid chain.pairwise_apart]
  congr 1
  omega

/-- A range of bytes that no edit of an accepted list reaches into. No step of mapping its start
underflows, and the bytes of the edited text at the mapped offset are the bytes of the range. What
stands in front of them is the source up to the range with all edits that end there or earlier,
and what stands behind is the source from the range on with all other edits. -/
theorem mapOffset?_tracks_untouched {source : Text} {edits : List Edit} {start stop : Nat}
    (accepted : validate source edits = .ok ()) (order : start ≤ stop)
    (inside : stop ≤ source.byteSize)
    (clear : ∀ edit ∈ edits, edit.stop ≤ start ∨ stop ≤ edit.start) :
    ∃ (text : Text) (mapped : Nat), apply source edits = .ok text ∧
      mapOffset? edits start = some mapped ∧
      text.toBytes.slice mapped (mapped + (stop - start)) = source.toBytes.slice start stop ∧
      text.toBytes.take mapped =
        rewriteBytes source.toBytes 0 start ((ordered edits).filter (·.stop ≤ start)) ∧
      text.toBytes.drop (mapped + (stop - start)) =
        rewriteBytes source.toBytes stop source.byteSize
          ((ordered edits).filter (start < ·.stop)) := by
  have chain := validate_eq_ok_iff.1 accepted
  have swept := chain.toBytes_sweep (Text.isBoundary_zero source)
  rw [Text.dropBytes_zero, chain.rewriteBytes_around source.toBytes (Nat.zero_le start) order inside
    fun edit member => clear edit (mem_ordered.1 member)] at swept
  have length : (source.toBytes.slice start stop).length = stop - start :=
    Bytes.length_slice (by simpa using inside)
  refine ⟨_, _, apply_eq_ok_iff.2 ⟨chain, rfl⟩,
    chain.mapOffset?_eq_length (Nat.le_trans order inside), ?_, ?_, ?_⟩
  · rw [swept, ← length, Bytes.slice_append]
  · rw [swept, List.append_assoc, List.take_left]
  · rw [swept, ← length, ← List.length_append, List.drop_left]

/-- The second byte of a character, between an edit and an insertion that end in front of the
character and an edit that starts behind it; the last one is listed first. -/
theorem mapOffset?_tracks_half_character :
    let source : Text := "abécd".toList
    let edits : List Edit := [⟨4, 6, ['z']⟩, ⟨0, 2, []⟩, .insert 2 "---".toList]
    validate source edits = .ok () ∧ mapOffset? edits 3 = some 4 ∧
      ∃ text, apply source edits = .ok text ∧
        text.toBytes.slice 4 5 = source.toBytes.slice 3 4 := by
  intro source edits
  have accepted : validate source edits = .ok () :=
    validate_eq_ok_iff.2 (chain_ordered (by decide +kernel) (by decide))
  have clear : ∀ edit ∈ edits, edit.stop ≤ 3 ∨ 4 ≤ edit.start := by decide
  obtain ⟨text, mapped, applied, lands, kept, -, -⟩ :=
    mapOffset?_tracks_untouched accepted (by decide : 3 ≤ 4) (by decide +kernel) clear
  have here : mapOffset? edits 3 = some 4 := by decide +kernel
  obtain rfl := Option.some.inj (lands.symm.trans here)
  exact ⟨accepted, here, text, applied, kept⟩

end Edit

end TagLift
