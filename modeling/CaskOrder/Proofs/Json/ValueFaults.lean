import CaskOrder.Json.Choice
import CaskOrder.Proofs.Json.Faults
import CaskOrder.Proofs.Json.Records
import Mathlib.Data.List.DropRight

/-!
# Faults in values

The readers of lists, of values that are passed over, of records and of chosen values stay inside
what they are given, if the readers of their parts do.  So do their marks, which are looked for
behind blanks, and the faults of records, which may be placed behind a brace that has not been
read yet.

So every error is reported behind some of the bytes of the text, with the lines that they fill and
the bytes of the line that they begin, and an incomplete text is reported behind all of them.
-/

namespace CaskOrder.Json

/-! ## Lists -/

theorem staysInside_firstItem : StaysInside firstItem := by
  intro cs
  apply Outcome.StaysIn.of_skipBlanks
  unfold firstItem
  generalize skipBlanks cs = ds
  split
  · exact Fault.liesIn_of_end rfl
  · exact List.suffix_cons _ _
  · exact List.suffix_refl _

theorem staysInside_nextItem : StaysInside nextItem := by
  intro cs
  apply Outcome.StaysIn.of_skipBlanks
  unfold nextItem
  generalize skipBlanks cs = ds
  split
  · exact Fault.liesIn_of_end rfl
  · exact List.suffix_cons _ _
  · next rest =>
    apply Outcome.StaysIn.of_cons_skipBlanks
    generalize skipBlanks rest = es
    split
    · exact Fault.liesIn_of_end rfl
    · exact Fault.next_liesIn (by nofun) (List.suffix_refl _)
    · exact List.suffix_refl _
  · exact Fault.next_liesIn (by nofun) (List.suffix_refl _)

theorem staysInside_listOf {item : Reader α} (hitem : StaysInside item.read) :
    StaysInside (listOf item).read := by
  apply (staysInside_opening _ _).andThen
  intro _
  apply staysInside_rounds
  intro taken
  have hmark : StaysInside fun cs => if taken.isEmpty then firstItem cs else nextItem cs := by
    cases taken with
    | nil => exact staysInside_firstItem
    | cons _ _ => exact staysInside_nextItem
  apply hmark.andThen
  intro more cs
  cases more with
  | false => exact List.suffix_refl cs
  | true => exact hitem.andThen_ok _ cs

/-! ## Values that are passed over -/

theorem staysInside_skipChar : StaysInside skipChar := by
  intro cs
  unfold skipChar
  split
  · exact Fault.liesIn_of_end rfl
  · exact List.suffix_cons _ _
  · next rest =>
    have hunit := staysInside_codeUnit.andThen_ok fun _ => (Turn.more () : Turn Unit Unit)
    exact (staysInside_escape hunit _).cons '\\' rest
  · split
    · exact Fault.here_liesIn (by nofun) (List.suffix_refl _)
    · exact List.suffix_cons _ _

theorem staysInside_skipString : StaysInside skipString.read :=
  staysInside_rounds (fun _ => staysInside_skipChar) ()

theorem staysInside_skipNumeral : StaysInside skipNumeral :=
  (Numeral.staysInside_read _).andThen_ok fun _ => ()

theorem staysInside_skipAtom : StaysInside skipAtom := by
  intro cs
  unfold skipAtom
  split
  · next rest => exact (staysInside_keyword ['u', 'l', 'l']).cons 'n' rest
  · next rest => exact (staysInside_keyword ['r', 'u', 'e']).cons 't' rest
  · next rest => exact (staysInside_keyword ['a', 'l', 's', 'e']).cons 'f' rest
  · next rest => exact staysInside_skipString.cons '"' rest
  · next rest => exact staysInside_skipNumeral.cons '-' rest
  · split
    · exact staysInside_skipNumeral cs
    · exact Fault.next_liesIn (by nofun) (List.suffix_refl cs)

theorem staysInside_skipStart (outer : List Bracket) : StaysInside (skipStart outer) := by
  intro cs
  apply Outcome.StaysIn.of_skipBlanks
  unfold skipStart
  generalize skipBlanks cs = ds
  split
  · exact Fault.liesIn_of_end rfl
  · exact List.suffix_cons _ _
  · exact List.suffix_cons _ _
  · exact staysInside_skipAtom.andThen_ok (fun _ => Pending.completed outer) ds

theorem staysInside_colon : StaysInside colon := by
  intro cs
  apply Outcome.StaysIn.of_skipBlanks
  unfold colon
  generalize skipBlanks cs = ds
  split
  · exact Fault.liesIn_of_end rfl
  · exact List.suffix_cons _ _
  · exact Fault.next_liesIn (by nofun) (List.suffix_refl _)

theorem staysInside_skipKey : StaysInside skipKey := by
  intro cs
  apply Outcome.StaysIn.of_skipBlanks
  unfold skipKey
  generalize skipBlanks cs = ds
  split
  · exact Fault.liesIn_of_end rfl
  · next rest => exact (staysInside_skipString.andThen fun _ => staysInside_colon).cons '"' rest
  · exact Fault.next_liesIn (by nofun) (List.suffix_refl _)

theorem staysInside_skipItem (inner : Bracket) (outer : List Bracket) :
    StaysInside (skipItem inner outer) := by
  cases inner with
  | list => exact staysInside_skipStart _
  | object => exact staysInside_skipKey.andThen fun _ => staysInside_skipStart _

theorem staysInside_skipStep (pending : Pending) : StaysInside (skipStep pending) := by
  intro cs
  cases pending with
  | value outer => exact staysInside_skipStart outer cs
  | opened inner outer =>
      apply Outcome.StaysIn.of_skipBlanks
      unfold skipStep
      simp only
      generalize skipBlanks cs = ds
      split
      · exact Fault.liesIn_of_end rfl
      · next c rest =>
        split
        · exact List.suffix_cons c rest
        · exact staysInside_skipItem inner outer (c :: rest)
  | after inner outer =>
      apply Outcome.StaysIn.of_skipBlanks
      unfold skipStep
      simp only
      generalize skipBlanks cs = ds
      split
      · exact Fault.liesIn_of_end rfl
      · next c rest =>
        split
        · exact List.suffix_cons c rest
        · split
          · exact (staysInside_skipItem inner outer).cons c rest
          · apply Fault.next_liesIn _ (List.suffix_refl _)
            cases inner <;> nofun

theorem staysInside_skipValue : StaysInside skipValue.read := by
  have hround (pending : Pending) : StaysInside (skipRound pending).read :=
    staysInside_skipStep pending
  exact staysInside_rounds hround (.value [])

/-! ## Records -/

theorem staysInside_stringKey :
    StaysInside fun cs => (stringBody.read cs).andThen fun key rest => .ok (some key, rest) :=
  staysInside_stringBody.andThen_ok some

theorem staysInside_firstKey : StaysInside firstKey := by
  intro cs
  apply Outcome.StaysIn.of_skipBlanks
  unfold firstKey
  generalize skipBlanks cs = ds
  split
  · exact Fault.liesIn_of_end rfl
  · exact List.suffix_cons _ _
  · next rest => exact staysInside_stringKey.cons '"' rest
  · exact Fault.next_liesIn (by nofun) (List.suffix_refl _)

theorem staysInside_nextKey : StaysInside nextKey := by
  intro cs
  apply Outcome.StaysIn.of_skipBlanks
  unfold nextKey
  generalize skipBlanks cs = ds
  split
  · exact Fault.liesIn_of_end rfl
  · exact List.suffix_cons _ _
  · next rest =>
    apply Outcome.StaysIn.of_cons_skipBlanks
    generalize skipBlanks rest = es
    split
    · exact Fault.liesIn_of_end rfl
    · next rest => exact staysInside_stringKey.cons '"' rest
    · exact Fault.next_liesIn (by nofun) (List.suffix_refl _)
    · exact Fault.next_liesIn (by nofun) (List.suffix_refl _)
  · exact Fault.next_liesIn (by nofun) (List.suffix_refl _)

theorem staysInside_keyMark (begun : Bool) : StaysInside (keyMark begun) := by
  cases begun with
  | false => exact staysInside_firstKey
  | true => exact staysInside_nextKey

theorem staysInside_lastItem : StaysInside lastItem := by
  intro cs
  apply Outcome.StaysIn.of_skipBlanks
  unfold lastItem
  generalize skipBlanks cs = ds
  split
  · exact Fault.liesIn_of_end rfl
  · exact List.suffix_cons _ _
  · next rest =>
    apply Outcome.StaysIn.of_cons_skipBlanks
    generalize skipBlanks rest = es
    split
    · exact Fault.next_liesIn (by nofun) (List.suffix_refl _)
    · exact Fault.next_liesIn (by nofun) (List.suffix_refl _)
  · exact Fault.next_liesIn (by nofun) (List.suffix_refl _)

theorem pastBrace_suffix (cs : List Char) : pastBrace cs <:+ cs := by
  have hblanks : skipBlanks cs <:+ cs := List.dropWhile_suffix isBlank
  apply List.IsSuffix.trans _ hblanks
  unfold pastBrace
  generalize skipBlanks cs = ds
  split
  · exact List.suffix_cons _ _
  · exact List.suffix_refl _

namespace RecordForm

variable {form : RecordForm α}

theorem staysInside_absent (form : RecordForm α) {cause : Cause}
    (hcause : cause.category ≠ .incomplete) (f : α → β) :
    StaysInside fun cs => (form.absent cause cs).map fun a => (f a, cs) := by
  intro cs
  unfold absent
  split
  · exact List.suffix_refl cs
  · exact Fault.here_liesIn hcause (List.suffix_refl cs)

theorem staysInside_member (hvalue : StaysInside form.value.read) (progress : Progress α) :
    StaysInside (form.member progress) := by
  apply (staysInside_keyMark progress.begun).andThen
  intro key? cs
  cases key? with
  | none =>
      simp only
      split
      · exact List.suffix_refl cs
      · exact form.staysInside_absent (by nofun) Turn.done cs
  | some key =>
      simp only
      split
      · split
        · exact Fault.here_liesIn (by nofun) (pastBrace_suffix cs)
        · exact (staysInside_colon.andThen fun _ => hvalue.andThen_ok _) cs
      · exact (staysInside_colon.andThen fun _ => staysInside_skipValue.andThen_ok _) cs

theorem staysInside_items (hvalue : StaysInside form.value.read) : StaysInside form.items := by
  apply staysInside_firstItem.andThen
  intro more cs
  cases more with
  | false => exact form.staysInside_absent (by nofun) id cs
  | true =>
      have hlast (a : α) : StaysInside fun cs => (lastItem cs).andThen fun _ rest => .ok (a, rest) :=
        staysInside_lastItem.andThen_ok fun _ => a
      exact hvalue.andThen hlast cs

end RecordForm

theorem staysInside_record {form : RecordForm α} (hvalue : StaysInside form.value.read) :
    StaysInside (record form).read := by
  intro cs
  apply Outcome.StaysIn.of_skipBlanks
  change (form.readForm cs).StaysIn (skipBlanks cs)
  unfold RecordForm.readForm
  generalize skipBlanks cs = ds
  split
  · exact Fault.liesIn_of_end rfl
  · next rest => exact (RecordForm.staysInside_items hvalue).cons '[' rest
  · next rest =>
    have hmembers : StaysInside form.members.read :=
      staysInside_rounds (RecordForm.staysInside_member hvalue) _
    exact hmembers.cons '{' rest
  · exact mismatch_liesIn _ ds

/-! ## Choices -/

theorem staysInside_named (choices : List (String × α)) (name : String) :
    StaysInside (named choices name) := by
  intro cs
  unfold named
  split
  · exact List.suffix_refl cs
  · exact Fault.here_liesIn (by nofun) (List.suffix_refl cs)

theorem staysInside_null : StaysInside null := by
  intro cs
  apply Outcome.StaysIn.of_skipBlanks
  unfold null
  generalize skipBlanks cs = ds
  split
  · exact Fault.liesIn_of_end rfl
  · next rest => exact (staysInside_keyword ['u', 'l', 'l']).cons 'n' rest
  · exact mismatch_liesIn _ ds

theorem staysInside_lastMember : StaysInside lastMember := by
  intro cs
  apply Outcome.StaysIn.of_skipBlanks
  unfold lastMember
  generalize skipBlanks cs = ds
  split
  · exact Fault.liesIn_of_end rfl
  · exact List.suffix_cons _ _
  · exact Fault.here_liesIn (by nofun) (List.suffix_refl _)

theorem staysInside_namedMember (choices : List (String × α)) :
    StaysInside (namedMember choices) := by
  intro cs
  apply Outcome.StaysIn.of_skipBlanks
  unfold namedMember
  generalize skipBlanks cs = ds
  split
  · exact Fault.liesIn_of_end rfl
  · next rest =>
    refine StaysInside.cons (staysInside_stringBody.andThen fun name => ?_) '"' rest
    refine (staysInside_named choices name).andThen fun a => ?_
    refine staysInside_colon.andThen fun _ => ?_
    refine staysInside_null.andThen fun _ => ?_
    exact staysInside_lastMember.andThen_ok fun _ => a
  · exact Fault.next_liesIn (by nofun) (List.suffix_refl _)
  · exact Fault.next_liesIn (by nofun) (List.suffix_refl _)

theorem staysInside_choice (choices : List (String × α)) : StaysInside (choice choices).read := by
  intro cs
  apply Outcome.StaysIn.of_skipBlanks
  change (readChoice choices cs).StaysIn (skipBlanks cs)
  unfold readChoice
  generalize skipBlanks cs = ds
  split
  · exact Fault.liesIn_of_end rfl
  · next rest => exact (staysInside_stringBody.andThen (staysInside_named choices)).cons '"' rest
  · next rest => exact (staysInside_namedMember choices).cons '{' rest
  · exact Fault.next_liesIn (by nofun) (List.suffix_refl _)

/-! ## Whole texts -/

theorem readWhole_liesIn {reader : Reader α} (hreader : StaysInside reader.read) {cs : List Char}
    {fault : Fault} (h : reader.readWhole cs = .error fault) : fault.LiesIn cs := by
  unfold Reader.readWhole at h
  split at h
  · next fault' hread =>
    cases h
    exact hreader.liesIn_of_error hread
  · next a rest hread =>
    split at h
    · cases h
    · cases h
      have hrest := hreader.suffix_of_ok hread
      exact Fault.next_liesIn (by nofun) ((List.dropWhile_suffix isBlank).trans hrest)

/-- The position is the one behind the given bytes: they consist of whole lines, which end with a
line feed, and of the bytes of a begun line, which the column counts. -/
structure Position.IsBehind (position : Position) (bytes : List UInt8) : Prop where
  line : position.line = bytes.count 10 + 1
  column : ∃ lines begun, bytes = lines ++ begun ∧ (∀ byte ∈ lines.getLast?, byte = 10) ∧
    10 ∉ begun ∧ position.column = begun.length

theorem Position.after_isBehind (bytes : List UInt8) : (Position.after bytes).IsBehind bytes where
  line := rfl
  column := by
    refine ⟨bytes.rdropWhile (· ≠ 10), bytes.rtakeWhile (· ≠ 10), ?_, ?_, ?_, ?_⟩
    · exact List.rdropWhile_append_rtakeWhile.symm
    · intro byte hlast
      rcases List.mem_getLast?_eq_getLast hlast with ⟨hnil, hbyte⟩
      have hstop := List.rdropWhile_last_not _ _ hnil
      rw [← hbyte] at hstop
      simpa using hstop
    · intro hmem
      have hne := List.mem_rtakeWhile_imp hmem
      simp at hne
    · rw [List.rtakeWhile, List.length_reverse]
      rfl

/-- The error is reported behind the first bytes of the text, and behind all of them if the text
is incomplete. -/
structure ParseError.PlacedIn (error : ParseError) (text : String) (place : Nat) : Prop where
  le_size : place ≤ text.utf8ByteSize
  isBehind : error.position.IsBehind ((Text.utf8 text.toList).take place)
  at_end : error.cause.category = .incomplete → place = text.utf8ByteSize

/-- Every error that the reader reports is that of a fault, and is placed in front of the bytes
that the fault counts. -/
def Reader.PlacesErrors (reader : Reader α) : Prop :=
  ∀ text error, reader.parse text = .error error →
    ∃ fault place, reader.readWhole text.toList = .error fault ∧ fault.cause = error.cause ∧
      place + fault.left = text.utf8ByteSize ∧ error.PlacedIn text place

theorem Fault.LiesIn.placedIn {fault : Fault} {text : String} (h : fault.LiesIn text.toList) :
    (ParseError.ofFault text.toList fault).PlacedIn text (text.utf8ByteSize - fault.left) where
  le_size := Nat.sub_le _ _
  isBehind := by
    rw [← Text.byteCount_toList]
    exact Position.after_isBehind _
  at_end hcategory := by
    rw [h.at_end hcategory, Nat.sub_zero]

theorem StaysInside.placesErrors {reader : Reader α} (hreader : StaysInside reader.read) :
    reader.PlacesErrors := by
  intro text error h
  unfold Reader.parse at h
  split at h
  · cases h
  · next fault hfault =>
    cases h
    have hlies := readWhole_liesIn hreader hfault
    have hleft := hlies.left_le
    rw [Text.byteCount_toList] at hleft
    exact ⟨fault, _, hfault, rfl, Nat.sub_add_cancel hleft, hlies.placedIn⟩

end CaskOrder.Json
