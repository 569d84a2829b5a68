import CaskOrder.Json.Numeral
import CaskOrder.Proofs.Json.Blanks

/-!
# Numerals

The grammar of numerals may stop anywhere between two digits, while the reader takes all
the digits there are.  So whatever the reader takes is a numeral, and a numeral is taken
as a whole if it is not followed by a character with which it could go on.
-/

namespace CaskOrder.Json

open Grammar

def NoDigit (cs : List Char) : Prop :=
  ∀ c ∈ cs.head?, c.isDigit = false

/-- A numeral cannot go on with the beginning of the text. -/
structure Ends (cs : List Char) : Prop where
  digit : NoDigit cs
  point : cs.head? ≠ some '.'
  lower : cs.head? ≠ some 'e'
  upper : cs.head? ≠ some 'E'

/-- A number without a sign. -/
def Unsigned (cs rest : List Char) : Prop :=
  ∃ fraction exponent, Whole cs fraction ∧ Fraction fraction exponent ∧ Exponent exponent rest

theorem number_iff {cs rest : List Char} :
    Number cs rest ↔ Unsigned cs rest ∨ ∃ ds, cs = '-' :: ds ∧ Unsigned ds rest := by
  constructor
  · intro h
    obtain ⟨whole, fraction, exponent, hminus, hunsigned⟩ := h
    cases hminus with
    | none => exact .inl ⟨fraction, exponent, hunsigned⟩
    | some => exact .inr ⟨whole, rfl, fraction, exponent, hunsigned⟩
  · intro h
    rcases h with ⟨fraction, exponent, hunsigned⟩ | ⟨ds, rfl, fraction, exponent, hunsigned⟩
    · exact ⟨cs, fraction, exponent, .none cs, hunsigned⟩
    · exact ⟨ds, fraction, exponent, .some ds, hunsigned⟩

/-! ## Digits -/

theorem digits_dropWhile {d : Char} (hd : d.isDigit = true) (cs : List Char) :
    Digits (d :: cs) (cs.dropWhile Char.isDigit) := by
  induction cs generalizing d with
  | nil => exact .one [] hd
  | cons c cs ih =>
      rw [List.dropWhile_cons]
      split
      · next hc => exact .more hd (ih hc)
      · exact .one (c :: cs) hd

theorem dropWhile_of_noDigit {cs : List Char} (h : NoDigit cs) :
    cs.dropWhile Char.isDigit = cs := by
  cases cs with
  | nil => rfl
  | cons c cs =>
      have hc : c.isDigit = false := h c rfl
      rw [List.dropWhile_cons_of_neg (by simp [hc])]

theorem dropWhile_of_digits {cs rest : List Char} (hdigits : Digits cs rest)
    (hrest : NoDigit rest) : cs.dropWhile Char.isDigit = rest := by
  induction hdigits with
  | one rest hd => rw [List.dropWhile_cons_of_pos hd, dropWhile_of_noDigit hrest]
  | more hd _ ih => rw [List.dropWhile_cons_of_pos hd, ih hrest]

theorem digits_head {cs rest : List Char} (hdigits : Digits cs rest) :
    ∃ d ds, cs = d :: ds ∧ d.isDigit = true := by
  cases hdigits with
  | one rest hd => exact ⟨_, rest, rfl, hd⟩
  | more hd _ => exact ⟨_, _, rfl, hd⟩

theorem digits_sound {atEnd : Cause} {cs ds rest : List Char}
    (h : Numeral.digits atEnd cs = .ok (ds, rest)) : Digits cs rest := by
  unfold Numeral.digits at h
  split at h
  · cases h
  · split at h
    · next hc =>
      cases h
      exact digits_dropWhile hc _
    · cases h

theorem digits_complete (atEnd : Cause) {cs rest : List Char} (hdigits : Digits cs rest)
    (hrest : NoDigit rest) : ∃ ds, Numeral.digits atEnd cs = .ok (ds, rest) := by
  have hdrop := dropWhile_of_digits hdigits hrest
  obtain ⟨d, ds, rfl, hd⟩ := digits_head hdigits
  rw [List.dropWhile_cons_of_pos hd] at hdrop
  refine ⟨d :: ds.takeWhile Char.isDigit, ?_⟩
  rw [Numeral.digits, if_pos hd, hdrop]

/-! ## Parts of a numeral -/

theorem wholePart_sound {atEnd : Cause} {cs ds rest : List Char}
    (h : Numeral.wholePart atEnd cs = .ok (ds, rest)) : Whole cs rest := by
  unfold Numeral.wholePart at h
  split at h
  · split at h
    · cases h
    · cases h
      exact .zero _
  · next hother =>
    have hdigits := digits_sound h
    by_cases hzero : cs.head? = some '0'
    · obtain ⟨d, tail, rfl, -⟩ := digits_head hdigits
      cases hzero
      cases tail with
      | nil =>
          cases hdigits with
          | one rest _ => exact .zero []
          | more _ hnone =>
              obtain ⟨_, _, hnil, -⟩ := digits_head hnone
              cases hnil
      | cons c tail => exact absurd rfl (hother c tail)
    · exact .digits hzero hdigits

theorem wholePart_complete (atEnd : Cause) {cs rest : List Char} (hwhole : Whole cs rest)
    (hrest : NoDigit rest) : ∃ ds, Numeral.wholePart atEnd cs = .ok (ds, rest) := by
  cases hwhole with
  | zero =>
      cases rest with
      | nil => exact ⟨['0'], rfl⟩
      | cons c rest =>
          have hc : c.isDigit = false := hrest c rfl
          exact ⟨['0'], by simp [Numeral.wholePart, hc]⟩
  | digits hzero hdigits =>
      unfold Numeral.wholePart
      split
      · exact absurd rfl hzero
      · exact digits_complete atEnd hdigits hrest

theorem fractionPart_sound {atEnd : Cause} {cs rest : List Char} {fraction? : Option (List Char)}
    (h : Numeral.fractionPart atEnd cs = .ok (fraction?, rest)) : Fraction cs rest := by
  unfold Numeral.fractionPart at h
  split at h
  · obtain ⟨ds, rest', hdigits, hrest⟩ := Outcome.andThen_eq_ok.mp h
    cases hrest
    exact .some (digits_sound hdigits)
  · cases h
    exact .none _

theorem fractionPart_complete (atEnd : Cause) {cs rest : List Char} (hfraction : Fraction cs rest)
    (hdigit : NoDigit rest) (hpoint : rest.head? ≠ some '.') :
    ∃ fraction?, Numeral.fractionPart atEnd cs = .ok (fraction?, rest) := by
  cases hfraction with
  | none =>
      refine ⟨none, ?_⟩
      unfold Numeral.fractionPart
      split
      · exact absurd rfl hpoint
      · rfl
  | some hdigits =>
      obtain ⟨ds, hread⟩ := digits_complete atEnd hdigits hdigit
      exact ⟨some ds, by simp [Numeral.fractionPart, hread]⟩

theorem exponentSign_sound (cs : List Char) : Sign cs (Numeral.exponentSign cs).2 := by
  unfold Numeral.exponentSign
  split
  · exact .plus _
  · exact .minus _
  · exact .none cs

theorem exponentSign_complete {cs ds rest : List Char} (hsign : Sign cs ds)
    (hdigits : Digits ds rest) : (Numeral.exponentSign cs).2 = ds := by
  cases hsign with
  | none =>
      obtain ⟨d, tail, rfl, hd⟩ := digits_head hdigits
      unfold Numeral.exponentSign
      split
      · next heq =>
        cases heq
        cases hd
      · next heq =>
        cases heq
        cases hd
      · rfl
  | plus => rfl
  | minus => rfl

theorem exponentPart_sound {atEnd : Cause} {cs rest : List Char}
    {exponent? : Option (Bool × List Char)}
    (h : Numeral.exponentPart atEnd cs = .ok (exponent?, rest)) : Exponent cs rest := by
  unfold Numeral.exponentPart at h
  split at h
  · next c tail =>
    split at h
    · next hletter =>
      obtain ⟨ds, rest', hdigits, hrest⟩ := Outcome.andThen_eq_ok.mp h
      cases hrest
      exact .some hletter (exponentSign_sound tail) (digits_sound hdigits)
    · cases h
      exact .none _
  · cases h
    exact .none []

theorem exponentPart_complete (atEnd : Cause) {cs rest : List Char}
    (hexponent : Exponent cs rest) (hends : Ends rest) :
    ∃ exponent?, Numeral.exponentPart atEnd cs = .ok (exponent?, rest) := by
  cases hexponent with
  | none =>
      refine ⟨none, ?_⟩
      unfold Numeral.exponentPart
      split
      · next c tail =>
        have hletter : ¬(c = 'e' ∨ c = 'E') := by
          intro hletter
          rcases hletter with rfl | rfl
          · exact hends.lower rfl
          · exact hends.upper rfl
        rw [if_neg hletter]
      · rfl
  | @some _ tail _ _ hletter hsign hdigits =>
      obtain ⟨ds, hread⟩ := digits_complete atEnd hdigits hends.digit
      refine ⟨some ((Numeral.exponentSign tail).1, ds), ?_⟩
      rw [Numeral.exponentPart, if_pos hletter, exponentSign_complete hsign hdigits, hread]
      rfl

/-! ## Whole numerals -/

theorem exponent_start {cs rest : List Char} (hexponent : Exponent cs rest) (hends : Ends rest) :
    NoDigit cs ∧ cs.head? ≠ some '.' := by
  cases hexponent with
  | none => exact ⟨hends.digit, hends.point⟩
  | some hletter _ _ =>
      rcases hletter with rfl | rfl
      · exact ⟨by simp [NoDigit], by simp⟩
      · exact ⟨by simp [NoDigit], by simp⟩

theorem fraction_start {cs rest : List Char} (hfraction : Fraction cs rest)
    (hdigit : NoDigit rest) : NoDigit cs := by
  cases hfraction with
  | none => exact hdigit
  | some _ => simp [NoDigit]

theorem numeral_sound {atEnd : Cause} {cs rest : List Char} {numeral : Numeral}
    (h : Numeral.read atEnd cs = .ok (numeral, rest)) : Unsigned cs rest := by
  obtain ⟨whole, fraction, hwhole, h⟩ := Outcome.andThen_eq_ok.mp h
  obtain ⟨fraction?, exponent, hfraction, h⟩ := Outcome.andThen_eq_ok.mp h
  obtain ⟨exponent?, rest', hexponent, h⟩ := Outcome.andThen_eq_ok.mp h
  cases h
  exact ⟨fraction, exponent, wholePart_sound hwhole, fractionPart_sound hfraction,
    exponentPart_sound hexponent⟩

theorem numeral_complete (atEnd : Cause) {cs rest : List Char} (hunsigned : Unsigned cs rest)
    (hends : Ends rest) : ∃ numeral, Numeral.read atEnd cs = .ok (numeral, rest) := by
  obtain ⟨fraction, exponent, hwhole, hfraction, hexponent⟩ := hunsigned
  obtain ⟨hdigit, hpoint⟩ := exponent_start hexponent hends
  obtain ⟨whole, hwhole⟩ := wholePart_complete atEnd hwhole (fraction_start hfraction hdigit)
  obtain ⟨fraction?, hfraction⟩ := fractionPart_complete atEnd hfraction hdigit hpoint
  obtain ⟨exponent?, hexponent⟩ := exponentPart_complete atEnd hexponent hends
  refine ⟨⟨whole, fraction?, exponent?⟩, ?_⟩
  rw [Numeral.read, hwhole, Outcome.andThen_ok, hfraction, Outcome.andThen_ok, hexponent,
    Outcome.andThen_ok]

/-! ## What a numeral takes off the text -/

theorem digits_suffix {cs rest : List Char} (hdigits : Digits cs rest) : rest <:+ cs := by
  induction hdigits with
  | one rest _ => exact List.suffix_cons _ rest
  | more _ _ ih => exact ih.trans (List.suffix_cons _ _)

theorem whole_suffix {cs rest : List Char} (hwhole : Whole cs rest) : rest <:+ cs := by
  cases hwhole with
  | zero => exact List.suffix_cons _ rest
  | digits _ hdigits => exact digits_suffix hdigits

theorem fraction_suffix {cs rest : List Char} (hfraction : Fraction cs rest) : rest <:+ cs := by
  cases hfraction with
  | none => exact List.suffix_refl cs
  | some hdigits => exact (digits_suffix hdigits).trans (List.suffix_cons _ _)

theorem sign_suffix {cs rest : List Char} (hsign : Sign cs rest) : rest <:+ cs := by
  cases hsign with
  | none => exact List.suffix_refl cs
  | plus => exact List.suffix_cons _ rest
  | minus => exact List.suffix_cons _ rest

theorem exponent_suffix {cs rest : List Char} (hexponent : Exponent cs rest) : rest <:+ cs := by
  cases hexponent with
  | none => exact List.suffix_refl cs
  | some _ hsign hdigits =>
      have hsuffix := (digits_suffix hdigits).trans (sign_suffix hsign)
      exact hsuffix.trans (List.suffix_cons _ _)

theorem unsigned_suffix {cs rest : List Char} (hunsigned : Unsigned cs rest) : rest <:+ cs := by
  obtain ⟨fraction, exponent, hwhole, hfraction, hexponent⟩ := hunsigned
  exact ((exponent_suffix hexponent).trans (fraction_suffix hfraction)).trans
    (whole_suffix hwhole)

theorem number_suffix {cs rest : List Char} (hnumber : Number cs rest) : rest <:+ cs := by
  rcases number_iff.mp hnumber with hunsigned | ⟨ds, rfl, hunsigned⟩
  · exact unsigned_suffix hunsigned
  · exact (unsigned_suffix hunsigned).trans (List.suffix_cons _ ds)

theorem unsigned_head {cs rest : List Char} (hunsigned : Unsigned cs rest) :
    ∃ d ds, cs = d :: ds ∧ d.isDigit = true := by
  obtain ⟨fraction, exponent, hwhole, -, -⟩ := hunsigned
  cases hwhole with
  | zero => exact ⟨'0', fraction, rfl, rfl⟩
  | digits _ hdigits => exact digits_head hdigits

end CaskOrder.Json
