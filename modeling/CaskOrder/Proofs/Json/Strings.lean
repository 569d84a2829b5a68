import CaskOrder.Json.Skip
import CaskOrder.Proofs.Json.Blanks

/-!
# String literals

A string is read exactly from the literals of the grammar whose units pair up into
characters, and it is the text that these stand for.  A string that is passed over needs
a literal only.

The reader takes a character at a time, and a character may be written as two units, so
one round of the reader corresponds to one or two pieces of the literal.
-/

namespace CaskOrder.Json

open Grammar

/-! ## Hexadecimal digits -/

theorem char_le_iff {c d : Char} : c ≤ d ↔ c.toNat ≤ d.toNat := by
  rw [Char.le_def, UInt32.le_iff_toNat_le]
  rfl

theorem getElem?_decimal :
    ∀ k < 10, "0123456789abcdef".toList[k]? = some (Char.ofNat (48 + k)) := by
  decide

theorem getElem?_lower :
    ∀ k < 6, "0123456789abcdef".toList[k + 10]? = some (Char.ofNat (97 + k)) := by
  decide

theorem getElem?_upper :
    ∀ k < 6, "0123456789ABCDEF".toList[k + 10]? = some (Char.ofNat (65 + k)) := by
  decide

theorem ofNat_add_sub {c : Char} {low : Nat} (hlow : low ≤ c.toNat) :
    Char.ofNat (low + (c.toNat - low)) = c := by
  have hcode : low + (c.toNat - low) = c.toNat := by omega
  rw [hcode, Char.ofNat_toNat]

theorem hexDigit_of_hexDigit? {c : Char} {n : Nat} (h : hexDigit? c = some n) : HexDigit c n := by
  unfold hexDigit? at h
  split at h
  · next hrange =>
    have hlow : 48 ≤ c.toNat := char_le_iff.mp hrange.1
    have hhigh : c.toNat ≤ 57 := char_le_iff.mp hrange.2
    have hdigit := getElem?_decimal (c.toNat - 48) (by omega)
    rw [ofNat_add_sub hlow] at hdigit
    cases h
    exact .inl hdigit
  · split at h
    · next hrange =>
      have hlow : 97 ≤ c.toNat := char_le_iff.mp hrange.1
      have hhigh : c.toNat ≤ 102 := char_le_iff.mp hrange.2
      have hdigit := getElem?_lower (c.toNat - 97) (by omega)
      rw [ofNat_add_sub hlow] at hdigit
      cases h
      exact .inl hdigit
    · split at h
      · next hrange =>
        have hlow : 65 ≤ c.toNat := char_le_iff.mp hrange.1
        have hhigh : c.toNat ≤ 70 := char_le_iff.mp hrange.2
        have hdigit := getElem?_upper (c.toNat - 65) (by omega)
        rw [ofNat_add_sub hlow] at hdigit
        cases h
        exact .inr hdigit
      · cases h

theorem hexDigit?_of_hexDigit {c : Char} {n : Nat} (h : HexDigit c n) : hexDigit? c = some n := by
  have hlt : n < 16 := by
    rcases h with h | h
    · exact (List.getElem?_eq_some_iff.mp h).1
    · exact (List.getElem?_eq_some_iff.mp h).1
  interval_cases n <;> rcases h with h | h <;> cases h <;> decide

theorem hexDigit?_eq_some_iff {c : Char} {n : Nat} : hexDigit? c = some n ↔ HexDigit c n :=
  ⟨hexDigit_of_hexDigit?, hexDigit?_of_hexDigit⟩

/-- Four hexadecimal digits, and the number that they are. -/
def CodeUnit (cs : List Char) (n : Nat) (rest : List Char) : Prop :=
  ∃ d₃ d₂ d₁ d₀ n₃ n₂ n₁ n₀, cs = d₃ :: d₂ :: d₁ :: d₀ :: rest ∧
    HexDigit d₃ n₃ ∧ HexDigit d₂ n₂ ∧ HexDigit d₁ n₁ ∧ HexDigit d₀ n₀ ∧
    n = ((n₃ * 16 + n₂) * 16 + n₁) * 16 + n₀

theorem codeUnit_eq_ok_iff {cs rest : List Char} {n : Nat} :
    codeUnit cs = .ok (n, rest) ↔ CodeUnit cs n rest := by
  constructor
  · intro h
    unfold codeUnit at h
    split at h
    · next n₃ n₂ n₁ n₀ hdigits =>
      cases h
      rcases cs with _ | ⟨d₃, _ | ⟨d₂, _ | ⟨d₁, _ | ⟨d₀, cs⟩⟩⟩⟩ <;>
        simp [Option.bind_eq_some_iff] at hdigits
      obtain ⟨h₃, h₂, h₁, h₀⟩ := hdigits
      simp only [hexDigit?_eq_some_iff] at h₃ h₂ h₁ h₀
      exact ⟨d₃, d₂, d₁, d₀, n₃, n₂, n₁, n₀, rfl, h₃, h₂, h₁, h₀, rfl⟩
    · split at h <;> cases h
  · intro h
    obtain ⟨d₃, d₂, d₁, d₀, n₃, n₂, n₁, n₀, rfl, h₃, h₂, h₁, h₀, rfl⟩ := h
    rw [← hexDigit?_eq_some_iff] at h₃ h₂ h₁ h₀
    simp [codeUnit, h₃, h₂, h₁, h₀]

/-! ## Escapes -/

theorem escapeLetters_lookup_eq_some_iff {letter c : Char} :
    escapeLetters.lookup letter = some c ↔ Escaped letter c := by
  constructor
  · intro h
    obtain ⟨front, back, hletters, -⟩ := List.lookup_eq_some_iff.mp h
    have hmem : (letter, c) ∈ escapeLetters := by simp [hletters]
    simp only [escapeLetters, List.mem_cons, Prod.mk.injEq, List.not_mem_nil, or_false] at hmem
    rcases hmem with ⟨rfl, rfl⟩ | ⟨rfl, rfl⟩ | ⟨rfl, rfl⟩ | ⟨rfl, rfl⟩ | ⟨rfl, rfl⟩ |
      ⟨rfl, rfl⟩ | ⟨rfl, rfl⟩ | ⟨rfl, rfl⟩
    · exact .quote
    · exact .backslash
    · exact .slash
    · exact .backspace
    · exact .formFeed
    · exact .lineFeed
    · exact .carriageReturn
    · exact .tab
  · intro h
    cases h <;> decide

theorem escape_eq_ok_iff {units : List Char → Outcome α} {letter : Char → α}
    {cs rest : List Char} {a : α} :
    escape units letter cs = .ok (a, rest) ↔
      (∃ l c, cs = l :: rest ∧ Escaped l c ∧ a = letter c) ∨
        ∃ tail, cs = 'u' :: tail ∧ units tail = .ok (a, rest) := by
  constructor
  · intro h
    unfold escape at h
    split at h
    · cases h
    · next tail => exact .inr ⟨tail, rfl, h⟩
    · next l tail _ =>
      split at h
      · next c hlookup =>
        cases h
        exact .inl ⟨l, c, rfl, escapeLetters_lookup_eq_some_iff.mp hlookup, rfl⟩
      · cases h
  · intro h
    rcases h with ⟨l, c, rfl, hescaped, rfl⟩ | ⟨tail, rfl, hunits⟩
    · cases hescaped <;> rfl
    · exact hunits

/-! ## Pieces -/

/-- One piece of a literal, with the text before and behind it. -/
inductive PieceAt : List Char → Piece → List Char → Prop where
  | plain {c : Char} (rest : List Char) :
      c ≠ '"' → c ≠ '\\' → 0x20 ≤ c.toNat → PieceAt (c :: rest) (.char c) rest
  | letter {letter c : Char} (rest : List Char) :
      Escaped letter c → PieceAt ('\\' :: letter :: rest) (.char c) rest
  | unit {cs rest : List Char} {n : Nat} :
      CodeUnit cs n rest → PieceAt ('\\' :: 'u' :: cs) (.unit n) rest

/-- Characters that need no escape stand for themselves. -/
theorem body_of_plain (chars : List Char)
    (hplain : ∀ c ∈ chars, c ≠ '"' ∧ c ≠ '\\' ∧ 0x20 ≤ c.toNat) (rest : List Char) :
    Body (chars ++ '"' :: rest) (chars.map .char) rest := by
  induction chars with
  | nil => exact .quote rest
  | cons c chars ih =>
      obtain ⟨⟨hquote, hbackslash, hcontrol⟩, hchars⟩ := List.forall_mem_cons.mp hplain
      exact .plain hquote hbackslash hcontrol (ih hchars)

theorem body_nil_iff {cs rest : List Char} : Body cs [] rest ↔ cs = '"' :: rest := by
  constructor
  · intro h
    cases h
    rfl
  · intro h
    subst cs
    exact .quote rest

theorem body_cons_iff {cs rest : List Char} {piece : Piece} {pieces : Literal} :
    Body cs (piece :: pieces) rest ↔ ∃ mid, PieceAt cs piece mid ∧ Body mid pieces rest := by
  constructor
  · intro h
    cases h with
    | plain hquote hbackslash hcontrol hbody =>
        exact ⟨_, .plain _ hquote hbackslash hcontrol, hbody⟩
    | letter hescaped hbody => exact ⟨_, .letter _ hescaped, hbody⟩
    | unit h₃ h₂ h₁ h₀ hbody =>
        exact ⟨_, .unit ⟨_, _, _, _, _, _, _, _, rfl, h₃, h₂, h₁, h₀, rfl⟩, hbody⟩
  · intro h
    obtain ⟨mid, hpiece, hbody⟩ := h
    cases hpiece with
    | plain _ hquote hbackslash hcontrol => exact .plain hquote hbackslash hcontrol hbody
    | letter _ hescaped => exact .letter hescaped hbody
    | unit hunit =>
        obtain ⟨d₃, d₂, d₁, d₀, n₃, n₂, n₁, n₀, rfl, h₃, h₂, h₁, h₀, rfl⟩ := hunit
        exact .unit h₃ h₂ h₁ h₀ hbody

theorem isControl_eq_false_iff {c : Char} : isControl c = false ↔ 0x20 ≤ c.toNat := by
  rw [isControl, decide_eq_false_iff_not]
  omega

/-! ## Strings that are passed over -/

theorem skipChar_plain {c : Char} (hquote : c ≠ '"') (hbackslash : c ≠ '\\')
    (hcode : 0x20 ≤ c.toNat) (rest : List Char) :
    skipChar (c :: rest) = .ok (.more (), rest) := by
  unfold skipChar
  split
  · next heq => cases heq
  · next heq =>
    cases heq
    exact absurd rfl hquote
  · next heq =>
    cases heq
    exact absurd rfl hbackslash
  · next heq =>
    cases heq
    rw [isControl_eq_false_iff.mpr hcode]
    rfl

theorem skipChar_eq_ok_iff {cs rest : List Char} {turn : Turn Unit Unit} :
    skipChar cs = .ok (turn, rest) ↔
      turn = .done () ∧ cs = '"' :: rest ∨
        turn = .more () ∧ ∃ piece, PieceAt cs piece rest := by
  constructor
  · intro h
    unfold skipChar at h
    split at h
    · cases h
    · cases h
      exact .inl ⟨rfl, rfl⟩
    · rw [escape_eq_ok_iff] at h
      rcases h with ⟨l, c, rfl, hescaped, rfl⟩ | ⟨tail, rfl, hunit⟩
      · exact .inr ⟨rfl, .char c, .letter _ hescaped⟩
      · obtain ⟨n, _, hunit, hturn⟩ := Outcome.andThen_eq_ok.mp hunit
        cases hturn
        exact .inr ⟨rfl, .unit n, .unit (codeUnit_eq_ok_iff.mp hunit)⟩
    · next c tail hquote hbackslash =>
      split at h
      · cases h
      · next hcontrol =>
        cases h
        have hcode : 0x20 ≤ c.toNat := isControl_eq_false_iff.mp (Bool.eq_false_iff.mpr hcontrol)
        exact .inr ⟨rfl, .char c, .plain _ hquote hbackslash hcode⟩
  · intro h
    rcases h with ⟨rfl, rfl⟩ | ⟨rfl, piece, hpiece⟩
    · rfl
    · cases hpiece with
      | plain _ hquote hbackslash hcode => exact skipChar_plain hquote hbackslash hcode rest
      | letter _ hescaped =>
          rw [skipChar, escape_eq_ok_iff]
          exact .inl ⟨_, _, rfl, hescaped, rfl⟩
      | unit hunit =>
          rw [skipChar, escape_eq_ok_iff]
          refine .inr ⟨_, rfl, ?_⟩
          rw [codeUnit_eq_ok_iff.mpr hunit]
          rfl

theorem skipString_eq_ok_iff {cs rest : List Char} :
    skipString.read cs = .ok ((), rest) ↔ ∃ pieces, Body cs pieces rest := by
  constructor
  · intro h
    refine Reader.rounds_induction (motive := fun _ cs => ∃ pieces, Body cs pieces rest) ?_ ?_ h
    · intro _ cs hdone
      rcases skipChar_eq_ok_iff.mp hdone with ⟨-, hquote⟩ | ⟨hturn, -⟩
      · exact ⟨[], body_nil_iff.mpr hquote⟩
      · cases hturn
    · intro _ cs _ mid hmore ih
      rcases skipChar_eq_ok_iff.mp hmore with ⟨hturn, -⟩ | ⟨-, piece, hpiece⟩
      · cases hturn
      · obtain ⟨pieces, hbody⟩ := ih
        exact ⟨piece :: pieces, body_cons_iff.mpr ⟨mid, hpiece, hbody⟩⟩
  · intro h
    obtain ⟨pieces, hbody⟩ := h
    induction pieces generalizing cs with
    | nil =>
        apply Reader.rounds_done
        exact skipChar_eq_ok_iff.mpr (.inl ⟨rfl, body_nil_iff.mp hbody⟩)
    | cons piece pieces ih =>
        obtain ⟨mid, hpiece, hbody⟩ := body_cons_iff.mp hbody
        have hround : skipChar cs = .ok (.more (), mid) :=
          skipChar_eq_ok_iff.mpr (.inr ⟨rfl, piece, hpiece⟩)
        exact (Reader.rounds_more hround).trans (ih hbody)

/-! ## Strings that are read -/

/-- A piece that stands for a character by itself. -/
inductive Alone : Piece → Char → Prop where
  | char (c : Char) : Alone (.char c) c
  | unit {n : Nat} : isHighHalf n = false → isLowHalf n = false → Alone (.unit n) (Char.ofNat n)

/-- A character in a literal: one piece that stands alone, or two units that are its
halves. -/
inductive CharAt : List Char → Char → List Char → Prop where
  | alone {cs rest : List Char} {piece : Piece} {c : Char} :
      PieceAt cs piece rest → Alone piece c → CharAt cs c rest
  | halves {cs ds rest : List Char} {high low : Nat} :
      PieceAt cs (.unit high) ds → PieceAt ds (.unit low) rest → isHighHalf high = true →
      isLowHalf low = true → CharAt cs (joinHalves high low) rest

theorem not_high_of_low {n : Nat} (h : isLowHalf n = true) : isHighHalf n = false := by
  simp only [isLowHalf, Bool.and_eq_true, decide_eq_true_eq] at h
  simp only [isHighHalf, Bool.and_eq_false_iff, decide_eq_false_iff_not]
  omega

theorem unitChar_eq_ok_iff {cs rest : List Char} {c : Char} :
    unitChar cs = .ok (c, rest) ↔
      (∃ n, CodeUnit cs n rest ∧ isHighHalf n = false ∧ isLowHalf n = false ∧
          c = Char.ofNat n) ∨
        ∃ high low ds, CodeUnit cs high ('\\' :: 'u' :: ds) ∧ CodeUnit ds low rest ∧
          isHighHalf high = true ∧ isLowHalf low = true ∧ c = joinHalves high low := by
  constructor
  · intro h
    obtain ⟨n, mid, hunit, h⟩ := Outcome.andThen_eq_ok.mp h
    rw [codeUnit_eq_ok_iff] at hunit
    by_cases hlow : isLowHalf n = true
    · simp [hlow] at h
    · rw [if_neg hlow] at h
      by_cases hhigh : isHighHalf n = true
      · rw [if_pos hhigh] at h
        obtain ⟨_, ds, hword, hpair⟩ := Outcome.andThen_eq_ok.mp h
        obtain ⟨low, es, hsecond, hjoined⟩ := Outcome.andThen_eq_ok.mp hpair
        rw [codeUnit_eq_ok_iff] at hsecond
        rw [word_eq_ok.mp hword] at hunit
        split at hjoined
        · next hsecondLow =>
          simp only [Except.ok.injEq, Prod.mk.injEq] at hjoined
          rw [hjoined.2] at hsecond
          exact .inr ⟨n, low, ds, hunit, hsecond, hhigh, hsecondLow, hjoined.1.symm⟩
        · cases hjoined
      · rw [if_neg hhigh] at h
        cases h
        exact .inl ⟨n, hunit, Bool.eq_false_iff.mpr hhigh, Bool.eq_false_iff.mpr hlow, rfl⟩
  · intro h
    rcases h with ⟨n, hunit, hhigh, hlow, hc⟩ | ⟨high, low, ds, hunit, hsecond, hhigh, hlow, hc⟩
    · rw [hc, unitChar, codeUnit_eq_ok_iff.mpr hunit, Outcome.andThen_ok, hlow, hhigh]
      rfl
    · have hnot : isLowHalf high = false := by
        cases hboth : isLowHalf high with
        | false => rfl
        | true => simp [not_high_of_low hboth] at hhigh
      have hword : word (.unexpectedEnd .string) .unfinishedPair ['\\', 'u'] ('\\' :: 'u' :: ds) =
          .ok ((), ds) := word_eq_ok.mpr rfl
      rw [hc, unitChar, codeUnit_eq_ok_iff.mpr hunit, Outcome.andThen_ok, hnot, hhigh,
        if_neg (by simp), if_pos rfl, hword, Outcome.andThen_ok, codeUnit_eq_ok_iff.mpr hsecond,
        Outcome.andThen_ok, if_pos hlow]

theorem stringChar_sound {cs rest : List Char} {c? : Option Char}
    (h : stringChar cs = .ok (c?, rest)) :
    c? = none ∧ cs = '"' :: rest ∨ ∃ c, c? = some c ∧ CharAt cs c rest := by
  unfold stringChar at h
  split at h
  · cases h
  · cases h
    exact .inl ⟨rfl, rfl⟩
  · rw [escape_eq_ok_iff] at h
    rcases h with ⟨l, c, rfl, hescaped, rfl⟩ | ⟨tail, rfl, hunit⟩
    · exact .inr ⟨c, rfl, .alone (.letter _ hescaped) (.char c)⟩
    · obtain ⟨c, _, hunit, hc⟩ := Outcome.andThen_eq_ok.mp hunit
      cases hc
      rcases unitChar_eq_ok_iff.mp hunit with
        ⟨n, hunit, hhigh, hlow, hc⟩ | ⟨high, low, ds, hunit, hsecond, hhigh, hlow, hc⟩
      · rw [hc]
        exact .inr ⟨_, rfl, .alone (.unit hunit) (.unit hhigh hlow)⟩
      · rw [hc]
        exact .inr ⟨_, rfl, .halves (.unit hunit) (.unit hsecond) hhigh hlow⟩
  · next c tail hquote hbackslash =>
    split at h
    · cases h
    · next hcontrol =>
      cases h
      have hcode : 0x20 ≤ c.toNat := isControl_eq_false_iff.mp (Bool.eq_false_iff.mpr hcontrol)
      exact .inr ⟨c, rfl, .alone (.plain _ hquote hbackslash hcode) (.char c)⟩

theorem stringChar_plain {c : Char} (hquote : c ≠ '"') (hbackslash : c ≠ '\\')
    (hcode : 0x20 ≤ c.toNat) (rest : List Char) :
    stringChar (c :: rest) = .ok (some c, rest) := by
  unfold stringChar
  split
  · next heq => cases heq
  · next heq =>
    cases heq
    exact absurd rfl hquote
  · next heq =>
    cases heq
    exact absurd rfl hbackslash
  · next heq =>
    cases heq
    rw [isControl_eq_false_iff.mpr hcode]
    rfl

theorem stringChar_unit {cs rest : List Char} {c : Char} (hunit : unitChar cs = .ok (c, rest)) :
    stringChar ('\\' :: 'u' :: cs) = .ok (some c, rest) := by
  have hchar : ((unitChar cs).andThen fun c rest => .ok (some c, rest)) = .ok (some c, rest) :=
    Outcome.andThen_eq_ok.mpr ⟨c, rest, hunit, rfl⟩
  rw [stringChar, escape_eq_ok_iff]
  exact .inr ⟨cs, rfl, hchar⟩

theorem stringChar_complete {cs rest : List Char} {c : Char} (hchar : CharAt cs c rest) :
    stringChar cs = .ok (some c, rest) := by
  cases hchar with
  | alone hpiece halone =>
      cases hpiece with
      | plain _ hquote hbackslash hcode =>
          cases halone
          exact stringChar_plain hquote hbackslash hcode rest
      | letter _ hescaped =>
          cases halone
          rw [stringChar, escape_eq_ok_iff]
          exact .inl ⟨_, _, rfl, hescaped, rfl⟩
      | unit hunit =>
          cases halone with
          | unit hhigh hlow =>
              exact stringChar_unit (unitChar_eq_ok_iff.mpr (.inl ⟨_, hunit, hhigh, hlow, rfl⟩))
  | halves hfirst hsecond hhigh hlow =>
      cases hfirst with
      | unit hunit =>
          cases hsecond with
          | unit hsecond =>
              apply stringChar_unit
              exact unitChar_eq_ok_iff.mpr
                (.inr ⟨_, _, _, hunit, hsecond, hhigh, hlow, rfl⟩)

theorem stringChar_eq_ok_iff {cs rest : List Char} {c? : Option Char} :
    stringChar cs = .ok (c?, rest) ↔
      c? = none ∧ cs = '"' :: rest ∨ ∃ c, c? = some c ∧ CharAt cs c rest := by
  constructor
  · exact stringChar_sound
  · intro h
    rcases h with ⟨hnone, hquote⟩ | ⟨c, hsome, hchar⟩
    · rw [hnone, hquote]
      rfl
    · rw [hsome]
      exact stringChar_complete hchar

theorem chars?_alone {piece : Piece} {c : Char} (halone : Alone piece c) (pieces : Literal) :
    Literal.chars? (piece :: pieces) = (Literal.chars? pieces).map (c :: ·) := by
  cases halone with
  | char c => rw [Literal.chars?]
  | unit hhigh hlow =>
      cases pieces with
      | nil => simp [Literal.chars?, hhigh, hlow]
      | cons next pieces =>
          cases next with
          | char c => simp [Literal.chars?, hhigh, hlow]
          | unit n => simp [Literal.chars?, hhigh, hlow]

theorem chars?_halves {high low : Nat} (hhigh : isHighHalf high = true)
    (hlow : isLowHalf low = true) (pieces : Literal) :
    Literal.chars? (.unit high :: .unit low :: pieces) =
      (Literal.chars? pieces).map (joinHalves high low :: ·) := by
  rw [Literal.chars?, hhigh, hlow]
  rfl

/-- The characters that a literal stands for, one after the other. -/
inductive Spells : List Char → List Char → List Char → Prop where
  | nil (rest : List Char) : Spells ('"' :: rest) [] rest
  | cons {cs ds rest chars : List Char} {c : Char} :
      CharAt cs c ds → Spells ds chars rest → Spells cs (c :: chars) rest

theorem Spells.body {cs chars rest : List Char} (hspells : Spells cs chars rest) :
    ∃ pieces, Body cs pieces rest ∧ Literal.chars? pieces = some chars := by
  induction hspells with
  | nil rest => exact ⟨[], .quote rest, rfl⟩
  | cons hchar _ ih =>
      obtain ⟨pieces, hbody, hchars⟩ := ih
      cases hchar with
      | alone hpiece halone =>
          refine ⟨_ :: pieces, body_cons_iff.mpr ⟨_, hpiece, hbody⟩, ?_⟩
          rw [chars?_alone halone, hchars, Option.map_some]
      | halves hfirst hsecond hhigh hlow =>
          have hboth := body_cons_iff.mpr ⟨_, hsecond, hbody⟩
          refine ⟨_ :: _ :: pieces, body_cons_iff.mpr ⟨_, hfirst, hboth⟩, ?_⟩
          rw [chars?_halves hhigh hlow, hchars, Option.map_some]

theorem Spells.of_body {cs chars rest : List Char} {pieces : Literal}
    (hbody : Body cs pieces rest) (hchars : Literal.chars? pieces = some chars) :
    Spells cs chars rest := by
  fun_induction Literal.chars? pieces generalizing cs chars with
  | case1 =>
      cases hchars
      rw [body_nil_iff.mp hbody]
      exact .nil rest
  | case2 c pieces ih =>
      obtain ⟨mid, hpiece, hbody⟩ := body_cons_iff.mp hbody
      obtain ⟨tail, htail, rfl⟩ := Option.map_eq_some_iff.mp hchars
      exact .cons (.alone hpiece (.char c)) (ih hbody htail)
  | case3 high low pieces hhalves ih =>
      obtain ⟨mid, hfirst, hbody⟩ := body_cons_iff.mp hbody
      obtain ⟨mid', hsecond, hbody⟩ := body_cons_iff.mp hbody
      obtain ⟨tail, htail, rfl⟩ := Option.map_eq_some_iff.mp hchars
      obtain ⟨hhigh, hlow⟩ := Bool.and_eq_true_iff.mp hhalves
      exact .cons (.halves hfirst hsecond hhigh hlow) (ih hbody htail)
  | case4 => cases hchars
  | case5 n low pieces _ hhalf ih =>
      obtain ⟨mid, hpiece, hbody⟩ := body_cons_iff.mp hbody
      obtain ⟨tail, htail, rfl⟩ := Option.map_eq_some_iff.mp hchars
      obtain ⟨hhigh, hlow⟩ := Bool.or_eq_false_iff.mp (Bool.eq_false_iff.mpr hhalf)
      exact .cons (.alone hpiece (.unit hhigh hlow)) (ih hbody htail)
  | case6 => cases hchars
  | case7 n pieces _ hhalf ih =>
      obtain ⟨mid, hpiece, hbody⟩ := body_cons_iff.mp hbody
      obtain ⟨tail, htail, rfl⟩ := Option.map_eq_some_iff.mp hchars
      obtain ⟨hhigh, hlow⟩ := Bool.or_eq_false_iff.mp (Bool.eq_false_iff.mpr hhalf)
      exact .cons (.alone hpiece (.unit hhigh hlow)) (ih hbody htail)

theorem stringRound_eq_ok_iff {taken cs rest : List Char} {turn : Turn (List Char) String} :
    (stringRound taken).read cs = .ok (turn, rest) ↔
      turn = .done (String.ofList taken.reverse) ∧ cs = '"' :: rest ∨
        ∃ c, turn = .more (c :: taken) ∧ CharAt cs c rest := by
  constructor
  · intro h
    obtain ⟨c?, mid, hread, hturn⟩ := Outcome.andThen_eq_ok.mp h
    rcases stringChar_eq_ok_iff.mp hread with ⟨rfl, hquote⟩ | ⟨c, rfl, hchar⟩
    · cases hturn
      exact .inl ⟨rfl, hquote⟩
    · cases hturn
      exact .inr ⟨c, rfl, hchar⟩
  · intro h
    rcases h with ⟨rfl, hquote⟩ | ⟨c, rfl, hchar⟩
    · exact Outcome.andThen_eq_ok.mpr ⟨_, _, stringChar_eq_ok_iff.mpr (.inl ⟨rfl, hquote⟩), rfl⟩
    · exact Outcome.andThen_eq_ok.mpr ⟨_, _, stringChar_eq_ok_iff.mpr (.inr ⟨c, rfl, hchar⟩), rfl⟩

theorem stringRounds_eq_ok_iff {taken cs rest : List Char} {text : String} :
    Reader.rounds stringRound taken cs = .ok (text, rest) ↔
      ∃ chars, Spells cs chars rest ∧ text = String.ofList (taken.reverse ++ chars) := by
  constructor
  · intro h
    refine Reader.rounds_induction (motive := fun taken cs =>
      ∃ chars, Spells cs chars rest ∧ text = String.ofList (taken.reverse ++ chars)) ?_ ?_ h
    · intro taken cs hdone
      rcases stringRound_eq_ok_iff.mp hdone with ⟨hturn, hquote⟩ | ⟨c, hturn, -⟩
      · cases hturn
        subst hquote
        exact ⟨[], .nil rest, by simp⟩
      · cases hturn
    · intro taken cs _ mid hmore ih
      rcases stringRound_eq_ok_iff.mp hmore with ⟨hturn, -⟩ | ⟨c, hturn, hchar⟩
      · cases hturn
      · cases hturn
        obtain ⟨chars, hspells, htext⟩ := ih
        exact ⟨c :: chars, .cons hchar hspells, by simpa using htext⟩
  · intro h
    obtain ⟨chars, hspells, rfl⟩ := h
    induction hspells generalizing taken with
    | nil rest =>
        apply Reader.rounds_done
        rw [stringRound_eq_ok_iff]
        exact .inl ⟨by simp, rfl⟩
    | @cons cs ds rest chars c hchar _ ih =>
        rw [Reader.rounds_more (stringRound_eq_ok_iff.mpr (.inr ⟨c, rfl, hchar⟩)), ih]
        simp

/-- A string is read exactly where the grammar has a literal that stands for it. -/
theorem stringBody_eq_ok_iff {cs rest : List Char} {text : String} :
    stringBody.read cs = .ok (text, rest) ↔
      ∃ literal, Body cs literal rest ∧ literal.text? = some text := by
  change Reader.rounds stringRound [] cs = .ok (text, rest) ↔ _
  rw [stringRounds_eq_ok_iff]
  constructor
  · intro h
    obtain ⟨chars, hspells, htext⟩ := h
    obtain ⟨literal, hbody, hchars⟩ := hspells.body
    refine ⟨literal, hbody, ?_⟩
    rw [Literal.text?, hchars, htext]
    rfl
  · intro h
    obtain ⟨literal, hbody, htext⟩ := h
    obtain ⟨chars, hchars, hof⟩ := Option.map_eq_some_iff.mp htext
    exact ⟨chars, .of_body hbody hchars, hof.symm⟩

end CaskOrder.Json
