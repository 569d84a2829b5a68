import CaskOrder.Json.Mismatch
import CaskOrder.Proofs.Json.Numerals

/-!
# Where faults lie

A fault counts the bytes behind its place, and a reader only knows what is left of the text.  So
a fault lies in the text if no reader counts more bytes than it was given, and this has to hold
all along the way that a fault takes: what one reader leaves for the next one is an end of the
text, and what lies in an end of the text lies in the text.  That a text is incomplete is found at
its end and nowhere else.

Both are carried together through the readers, beginning with single characters.  Only a numeral
needs more: a fault in its value is placed among digits that have been read before.
-/

namespace CaskOrder.Json

/-- The fault lies in the text, and if it is that the text is incomplete, at its end. -/
structure Fault.LiesIn (fault : Fault) (cs : List Char) : Prop where
  left_le : fault.left ≤ Text.byteCount cs
  at_end : fault.cause.category = .incomplete → fault.left = 0

/-- What is left of the text is an end of it, or the fault lies in it. -/
def Outcome.StaysIn (outcome : Outcome α) (cs : List Char) : Prop :=
  match outcome with
  | .ok (_, rest) => rest <:+ cs
  | .error fault => fault.LiesIn cs

def StaysInside (read : List Char → Outcome α) : Prop :=
  ∀ cs, (read cs).StaysIn cs

section

variable {cs ds rest : List Char} {fault : Fault} {cause : Cause} {outcome : Outcome α}

theorem Fault.liesIn_of_end (hleft : fault.left = 0) : fault.LiesIn cs where
  left_le := by
    rw [hleft]
    exact Nat.zero_le _
  at_end _ := hleft

theorem Fault.here_liesIn (hcause : cause.category ≠ .incomplete) (hrest : rest <:+ cs) :
    (Fault.here cause rest).LiesIn cs where
  left_le := Text.byteCount_le_of_suffix hrest
  at_end h := absurd h hcause

theorem Fault.next_liesIn (hcause : cause.category ≠ .incomplete) (hrest : rest <:+ cs) :
    (Fault.next cause rest).LiesIn cs where
  left_le := (Nat.sub_le _ _).trans (Text.byteCount_le_of_suffix hrest)
  at_end h := absurd h hcause

theorem Fault.LiesIn.mono (h : fault.LiesIn cs) (hsuffix : cs <:+ ds) : fault.LiesIn ds where
  left_le := h.left_le.trans (Text.byteCount_le_of_suffix hsuffix)
  at_end := h.at_end

theorem Outcome.StaysIn.mono (h : outcome.StaysIn cs) (hsuffix : cs <:+ ds) :
    outcome.StaysIn ds := by
  rcases outcome with fault | ⟨a, rest⟩
  · exact Fault.LiesIn.mono h hsuffix
  · exact List.IsSuffix.trans h hsuffix

theorem Outcome.StaysIn.of_skipBlanks (h : outcome.StaysIn (skipBlanks cs)) :
    outcome.StaysIn cs :=
  h.mono (List.dropWhile_suffix isBlank)

theorem Outcome.StaysIn.of_cons_skipBlanks (c : Char) (h : outcome.StaysIn (skipBlanks cs)) :
    outcome.StaysIn (c :: cs) :=
  h.of_skipBlanks.mono (List.suffix_cons c cs)

end

/-! ## One thing after the other -/

section

variable {read : List Char → Outcome α} {next : α → List Char → Outcome β}

theorem staysInside_ok (a : α) : StaysInside fun cs => .ok (a, cs) :=
  fun cs => List.suffix_refl cs

theorem Outcome.StaysIn.andThen {outcome : Outcome α} {cs : List Char} (h : outcome.StaysIn cs)
    (hnext : ∀ a, StaysInside (next a)) : (outcome.andThen next).StaysIn cs := by
  rcases outcome with fault | ⟨a, rest⟩
  · exact h
  · exact (hnext a rest).mono h

theorem StaysInside.andThen (hread : StaysInside read) (hnext : ∀ a, StaysInside (next a)) :
    StaysInside fun cs => (read cs).andThen next :=
  fun cs => (hread cs).andThen hnext

theorem StaysInside.andThen_ok (hread : StaysInside read) (f : α → β) :
    StaysInside fun cs => (read cs).andThen fun a rest => .ok (f a, rest) :=
  hread.andThen fun a => staysInside_ok (f a)

theorem StaysInside.suffix_of_ok {cs rest : List Char} {a : α} (hread : StaysInside read)
    (h : read cs = .ok (a, rest)) : rest <:+ cs := by
  have hstays := hread cs
  rw [h] at hstays
  exact hstays

theorem StaysInside.liesIn_of_error {cs : List Char} {fault : Fault} (hread : StaysInside read)
    (h : read cs = .error fault) : fault.LiesIn cs := by
  have hstays := hread cs
  rw [h] at hstays
  exact hstays

theorem StaysInside.cons (hread : StaysInside read) (c : Char) (cs : List Char) :
    (read cs).StaysIn (c :: cs) :=
  (hread cs).mono (List.suffix_cons c cs)

/-- Each round of a loop is given what the round before has left. -/
theorem staysInside_rounds {round : σ → Reader (Turn σ α)}
    (hround : ∀ state, StaysInside (round state).read) (state : σ) :
    StaysInside (Reader.rounds round state) := by
  intro cs
  fun_induction Reader.rounds round state cs with
  | case1 state cs fault hread => exact (hround state).liesIn_of_error hread
  | case2 state cs a rest hread => exact (hround state).suffix_of_ok hread
  | case3 state cs state' rest hread _ ih => exact ih.mono ((hround state).suffix_of_ok hread)

end

/-! ## Characters -/

theorem staysInside_word (atEnd : Cause) {otherwise : Cause}
    (hotherwise : otherwise.category ≠ .incomplete) (letters : List Char) :
    StaysInside (word atEnd otherwise letters) := by
  intro cs
  fun_induction word atEnd otherwise letters cs with
  | case1 cs => exact List.suffix_refl cs
  | case2 => exact Fault.liesIn_of_end rfl
  | case3 _ _ _ ih => exact ih.mono (List.suffix_cons _ _)
  | case4 => exact Fault.next_liesIn hotherwise (List.suffix_refl _)

/-- Digits that are missing are found at the end, wherever the unit began. -/
theorem staysInside_codeUnit : StaysInside codeUnit := by
  intro cs
  unfold codeUnit
  split
  · exact List.drop_suffix 4 cs
  · split
    · exact Fault.liesIn_of_end rfl
    · exact ⟨Nat.sub_le _ _, nofun⟩

theorem staysInside_unitChar : StaysInside unitChar := by
  apply staysInside_codeUnit.andThen
  intro high cs
  split
  · exact Fault.here_liesIn (by nofun) (List.suffix_refl cs)
  · split
    -- the first half of a character is read, and the other half has to follow
    · apply Outcome.StaysIn.andThen (staysInside_word _ (by nofun) _ cs)
      intro _
      apply staysInside_codeUnit.andThen
      intro low cs
      split
      · exact List.suffix_refl cs
      · exact Fault.here_liesIn (by nofun) (List.suffix_refl cs)
    · exact List.suffix_refl cs

theorem staysInside_escape {units : List Char → Outcome α} (hunits : StaysInside units)
    (letter : Char → α) : StaysInside (escape units letter) := by
  intro cs
  unfold escape
  split
  · exact Fault.liesIn_of_end rfl
  · next rest => exact hunits.cons 'u' rest
  · split
    · exact List.suffix_cons _ _
    · exact Fault.next_liesIn (by nofun) (List.suffix_refl _)

theorem staysInside_stringChar : StaysInside stringChar := by
  intro cs
  unfold stringChar
  split
  · exact Fault.liesIn_of_end rfl
  · exact List.suffix_cons _ _
  · next rest =>
    have hunits := staysInside_unitChar.andThen_ok some
    exact (staysInside_escape hunits some).cons '\\' rest
  · split
    · exact Fault.here_liesIn (by nofun) (List.suffix_cons _ _)
    · exact List.suffix_cons _ _

theorem staysInside_stringBody : StaysInside stringBody.read := by
  apply staysInside_rounds
  intro taken
  apply staysInside_stringChar.andThen
  intro c?
  cases c? with
  | none => exact staysInside_ok _
  | some c => exact staysInside_ok _

/-! ## Numerals -/

namespace Numeral

variable {atEnd : Cause} {cs rest ds : List Char}

theorem staysInside_digits (atEnd : Cause) : StaysInside (digits atEnd) := by
  intro cs
  unfold digits
  split
  · exact Fault.liesIn_of_end rfl
  · split
    · exact (List.dropWhile_suffix _).trans (List.suffix_cons _ _)
    · exact Fault.next_liesIn (by nofun) (List.suffix_refl _)

theorem staysInside_wholePart (atEnd : Cause) : StaysInside (wholePart atEnd) := by
  intro cs
  unfold wholePart
  split
  · split
    · exact Fault.next_liesIn (by nofun) (List.suffix_cons _ _)
    · exact List.suffix_cons _ _
  · exact staysInside_digits atEnd cs

theorem staysInside_fractionPart (atEnd : Cause) : StaysInside (fractionPart atEnd) := by
  intro cs
  unfold fractionPart
  split
  · next rest => exact ((staysInside_digits atEnd).andThen_ok some).cons '.' rest
  · exact List.suffix_refl cs

theorem exponentSign_suffix (cs : List Char) : (exponentSign cs).2 <:+ cs :=
  sign_suffix (exponentSign_sound cs)

theorem staysInside_exponentPart (atEnd : Cause) : StaysInside (exponentPart atEnd) := by
  intro cs
  unfold exponentPart
  split
  · next c rest =>
    split
    · have hdigits := (staysInside_digits atEnd).andThen_ok fun ds =>
        some ((exponentSign rest).1, ds)
      have hsuffix := (exponentSign_suffix rest).trans (List.suffix_cons c rest)
      exact (hdigits _).mono hsuffix
    · exact List.suffix_refl _
  · exact List.suffix_refl _

theorem staysInside_read (atEnd : Cause) : StaysInside (read atEnd) :=
  (staysInside_wholePart atEnd).andThen fun _ =>
    (staysInside_fractionPart atEnd).andThen fun _ =>
      (staysInside_exponentPart atEnd).andThen fun _ => staysInside_ok _

/-- The digits of the exponent, with what follows the numeral, are an end of the text. -/
def ExponentIn (numeral : Numeral) (rest cs : List Char) : Prop :=
  ∀ exponent ∈ numeral.exponent?, exponent.2 ++ rest <:+ cs

theorem digits_append (h : digits atEnd cs = .ok (ds, rest)) : cs = ds ++ rest := by
  unfold digits at h
  split at h
  · cases h
  · split at h
    · cases h
      rw [List.cons_append, List.takeWhile_append_dropWhile]
    · cases h

theorem exponentPart_suffix {down : Bool} (h : exponentPart atEnd cs = .ok (some (down, ds), rest)) :
    ds ++ rest <:+ cs := by
  unfold exponentPart at h
  split at h
  · next c tail =>
    split at h
    · rcases Outcome.andThen_eq_ok.mp h with ⟨ds', rest', hdigits, h⟩
      cases h
      rw [← digits_append hdigits]
      exact (exponentSign_suffix tail).trans (List.suffix_cons c tail)
    · cases h
  · cases h

theorem exponentIn_of_read {numeral : Numeral} (h : read atEnd cs = .ok (numeral, rest)) :
    numeral.ExponentIn rest cs := by
  rcases Outcome.andThen_eq_ok.mp h with ⟨whole, fraction, hwhole, h⟩
  rcases Outcome.andThen_eq_ok.mp h with ⟨fraction?, exponent, hfraction, h⟩
  rcases Outcome.andThen_eq_ok.mp h with ⟨exponent?, rest', hexponent, h⟩
  cases h
  have hsuffix := (fraction_suffix (fractionPart_sound hfraction)).trans
    (whole_suffix (wholePart_sound hwhole))
  intro (down, ds) hsome
  change exponent? = some (down, ds) at hsome
  rw [hsome] at hexponent
  exact (exponentPart_suffix hexponent).trans hsuffix

theorem absorb_suffix (bound n : Nat) (ds : List Char) : (absorb bound n ds).2 <:+ ds := by
  fun_induction absorb bound n ds with
  | case1 => exact List.suffix_refl []
  | case2 n d ds extended _ ih => exact ih.trans (List.suffix_cons d ds)
  | case3 => exact List.suffix_refl _

/-- A value is out of range behind the numeral, or behind the digit that makes the exponent too
large. -/
theorem value_eq_error {numeral : Numeral} {negative : Bool} {fault : Fault}
    (h : numeral.value negative rest = .error fault) :
    ∃ unread, fault = .here .numberOutOfRange (unread ++ rest) ∧
      (unread = [] ∨ ∃ exponent ∈ numeral.exponent?, unread <:+ exponent.2) := by
  unfold value at h
  simp only at h
  split at h
  -- the digits of the exponent are all counted, or one of them is too many
  · next down ds hexponent =>
    split at h
    · split at h
      · cases h
      · cases h
        exact ⟨[], rfl, .inl rfl⟩
    · next digit unread hunread =>
      split at h
      · cases h
        have hsuffix := absorb_suffix (Nat.pow 2 31) 0 ds
        rw [hunread] at hsuffix
        exact ⟨unread, rfl, .inr ⟨_, hexponent, (List.suffix_cons digit unread).trans hsuffix⟩⟩
      · cases h
  · split at h
    · split at h
      · cases h
      · cases h
        exact ⟨[], rfl, .inl rfl⟩
    · split_ifs at h

theorem value_liesIn {numeral : Numeral} {negative : Bool} {fault : Fault}
    (h : numeral.value negative rest = .error fault) (hrest : rest <:+ cs)
    (hexponent : numeral.ExponentIn rest cs) : fault.LiesIn cs := by
  rcases value_eq_error h with ⟨unread, hfault, hnone | ⟨exponent, hmem, hunread⟩⟩
  · rw [hfault, hnone]
    exact Fault.here_liesIn (by nofun) hrest
  · rw [hfault]
    apply Fault.here_liesIn (by nofun)
    exact (List.suffix_append_self_iff.mpr hunread).trans (hexponent exponent hmem)

end Numeral

/-! ## Values of the wrong kind -/

theorem staysInside_keyword (letters : List Char) : StaysInside (keyword letters) :=
  staysInside_word _ (by nofun) letters

theorem staysInside_foundNumeral (negative : Bool) : StaysInside (foundNumeral negative) := by
  intro cs
  have hread := Numeral.staysInside_read (.unexpectedEnd .value)
  unfold foundNumeral
  cases hnumeral : Numeral.read (.unexpectedEnd .value) cs with
  | error fault => exact hread.liesIn_of_error hnumeral
  | ok found =>
      rcases found with ⟨numeral, rest⟩
      have hrest := hread.suffix_of_ok hnumeral
      rw [Outcome.andThen_ok]
      cases hvalue : numeral.value negative rest with
      | error fault => exact Numeral.value_liesIn hvalue hrest (Numeral.exponentIn_of_read hnumeral)
      | ok value => exact hrest

theorem staysInside_foundValue : StaysInside foundValue := by
  intro cs
  unfold foundValue
  split
  · next rest =>
    have hnull := (staysInside_keyword ['u', 'l', 'l']).andThen_ok fun _ => Found.null
    exact hnull.cons 'n' rest
  · next rest =>
    have htrue := (staysInside_keyword ['r', 'u', 'e']).andThen_ok fun _ => Found.bool true
    exact htrue.cons 't' rest
  · next rest =>
    have hfalse := (staysInside_keyword ['a', 'l', 's', 'e']).andThen_ok fun _ => Found.bool false
    exact hfalse.cons 'f' rest
  · next rest => exact (staysInside_stringBody.andThen_ok Found.string).cons '"' rest
  · exact List.suffix_refl _
  · exact List.suffix_refl _
  · next rest => exact (staysInside_foundNumeral true).cons '-' rest
  · split
    · exact staysInside_foundNumeral false cs
    · exact Fault.next_liesIn (by nofun) (List.suffix_refl cs)

theorem mismatch_liesIn (expected : Expected) (cs : List Char) :
    (mismatch expected cs).LiesIn cs := by
  unfold mismatch
  split
  · next fault hfault => exact staysInside_foundValue.liesIn_of_error hfault
  · next found rest hfound =>
    exact Fault.here_liesIn (by nofun) (staysInside_foundValue.suffix_of_ok hfound)

theorem staysInside_opening (mark : Char) (expected : Expected) :
    StaysInside (opening mark expected) := by
  intro cs
  apply Outcome.StaysIn.of_skipBlanks
  unfold opening
  generalize skipBlanks cs = ds
  split
  · exact Fault.liesIn_of_end rfl
  · next c rest =>
    split
    · exact List.suffix_cons c rest
    · exact mismatch_liesIn expected (c :: rest)

theorem staysInside_string : StaysInside string.read :=
  (staysInside_opening _ _).andThen fun _ => staysInside_stringBody

end CaskOrder.Json
