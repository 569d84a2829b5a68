import CaskOrder.Text.Utf8
import Mathlib.Tactic

/-!
# The order of UTF-8 texts

A character is encoded as a first byte that tells how many bytes follow, and these are the last
digits of its code to base 64.  The first byte of a longer encoding is the larger one, and codes
with encodings of one length are compared digit by digit.  So comparing two texts by their bytes
comes to the same as comparing them by the codes of their characters, wherever they differ first.
-/

namespace CaskOrder.Text

/-! ## Digits -/

/-- Two numbers are compared by their last digits if the digits before these are the same. -/
theorem compare_div_mod (n m base : Nat) :
    (compare (n / base) (m / base)).then (compare (n % base) (m % base)) = compare n m := by
  have hn := Nat.div_add_mod n base
  have hm := Nat.div_add_mod m base
  rcases Nat.lt_trichotomy (n / base) (m / base) with hlt | heq | hgt
  · have hless : n < m := lt_of_not_ge fun hle => by
      have := Nat.div_le_div_right (c := base) hle
      omega
    rw [Nat.compare_eq_lt.mpr hlt, Nat.compare_eq_lt.mpr hless]
    rfl
  · rw [heq] at hn ⊢
    rw [Nat.compare_eq_eq.mpr rfl, Nat.compare_eq_ite_lt, Nat.compare_eq_ite_lt]
    have hless : n % base < m % base ↔ n < m := by omega
    have hmore : m % base < n % base ↔ m < n := by omega
    simp only [hless, hmore]
    rfl
  · have hmore : m < n := lt_of_not_ge fun hle => by
      have := Nat.div_le_div_right (c := base) hle
      omega
    rw [Nat.compare_eq_gt.mpr hgt, Nat.compare_eq_gt.mpr hmore]
    rfl

theorem compare_add_left (k n m : Nat) : compare (k + n) (k + m) = compare n m := by
  rw [Nat.compare_eq_ite_lt, Nat.compare_eq_ite_lt]
  simp only [Nat.add_lt_add_iff_left]

theorem compare_ofNat {n m : Nat} (hn : n < 256) (hm : m < 256) :
    compare (UInt8.ofNat n) (UInt8.ofNat m) = compare n m := by
  rw [UInt8.compare_eq_toNat_compare_toNat, UInt8.toNat_ofNat', UInt8.toNat_ofNat',
    Nat.mod_eq_of_lt hn, Nat.mod_eq_of_lt hm]

/-- The last digits of a code to base 64, as the bytes that follow the first one. -/
def following (code : Nat) : Nat → List UInt8
  | 0 => []
  | count + 1 => UInt8.ofNat (128 + code / 64 ^ count % 64) :: following code count

theorem compare_following (n m count : Nat) (xs ys : List UInt8) :
    compare (following n count ++ xs) (following m count ++ ys) =
      (compare (n % 64 ^ count) (m % 64 ^ count)).then (compare xs ys) := by
  induction count with
  | zero =>
      rw [Nat.pow_zero, Nat.mod_one, Nat.mod_one]
      rfl
  | succ count ih =>
      have hbyte (code : Nat) : 128 + code / 64 ^ count % 64 < 256 := by omega
      have hsplit := compare_div_mod (n % 64 ^ (count + 1)) (m % 64 ^ (count + 1)) (64 ^ count)
      rw [Nat.pow_succ, Nat.mod_mul_right_div_self, Nat.mod_mul_right_div_self,
        Nat.mod_mul_right_mod, Nat.mod_mul_right_mod] at hsplit
      rw [following, following, List.cons_append, List.cons_append, List.compare_cons_cons, ih,
        compare_ofNat (hbyte n) (hbyte m), compare_add_left, ← Ordering.then_assoc, hsplit,
        Nat.pow_succ]

/-! ## Characters -/

/-- The smallest first byte that the given number of bytes can follow. -/
def firstMark : Nat → Nat
  | 0 => 0
  | 1 => 192
  | 2 => 224
  | 3 => 240
  | _ => 248

/-- The smallest code that is encoded with the given number of bytes behind the first one. -/
def firstCode : Nat → Nat
  | 0 => 0
  | 1 => 0x80
  | 2 => 0x800
  | 3 => 0x10000
  | _ => 0x110000

theorem firstMark_mono : Monotone firstMark := by
  apply monotone_nat_of_le_succ
  rintro (_ | _ | _ | _ | n) <;> simp [firstMark]

theorem firstCode_mono : Monotone firstCode := by
  apply monotone_nat_of_le_succ
  rintro (_ | _ | _ | _ | n) <;> simp [firstCode]

/-- The first byte of a code that is encoded with the given number of bytes behind it. -/
def firstByte (code count : Nat) : Nat :=
  firstMark count + code / 64 ^ count

/-- The code of the character is among those that are encoded with the given number of bytes
behind the first one. -/
structure EncodedWith (c : Char) (count : Nat) : Prop where
  code_ge : firstCode count ≤ c.toNat
  code_lt : c.toNat < firstCode (count + 1)

theorem exists_encodedWith (c : Char) : ∃ count, EncodedWith c count := by
  have hvalid : c.toNat < 0x110000 := by
    rcases c.valid with h | h
    · exact h.trans (by decide)
    · exact h.2
  by_cases h0 : c.toNat < 0x80
  · exact ⟨0, Nat.zero_le _, h0⟩
  by_cases h1 : c.toNat < 0x800
  · exact ⟨1, Nat.le_of_not_lt h0, h1⟩
  by_cases h2 : c.toNat < 0x10000
  · exact ⟨2, Nat.le_of_not_lt h1, h2⟩
  · exact ⟨3, Nat.le_of_not_lt h2, hvalid⟩

/-- Nothing of the code is lost in the first byte, where the bits are cut off that mark the
length. -/
theorem EncodedWith.bytes_eq {c : Char} {count : Nat} (hc : EncodedWith c count) :
    String.utf8EncodeChar c =
      UInt8.ofNat (firstByte c.toNat count) :: following c.toNat count := by
  rcases hc with ⟨hge, hlt⟩
  have hval : c.val.toNat = c.toNat := rfl
  rcases count with _ | _ | _ | _ | count
  · have h0 : c.toNat ≤ 0x7f := Nat.le_of_lt_succ hlt
    simp [String.utf8EncodeChar, hval, h0, firstByte, firstMark, following]
  · have h0 : ¬c.toNat ≤ 0x7f := Nat.not_le_of_lt hge
    have h1 : c.toNat ≤ 0x7ff := Nat.le_of_lt_succ hlt
    have hfirst : c.toNat / 64 % 32 = c.toNat / 64 := by omega
    simp [String.utf8EncodeChar, hval, h0, h1, hfirst, firstByte, firstMark, following, add_comm]
  · have h1 : ¬c.toNat ≤ 0x7ff := Nat.not_le_of_lt hge
    have h0 : ¬c.toNat ≤ 0x7f := by omega
    have h2 : c.toNat ≤ 0xffff := Nat.le_of_lt_succ hlt
    have hfirst : c.toNat / 4096 % 16 = c.toNat / 4096 := by omega
    simp [String.utf8EncodeChar, hval, h0, h1, h2, hfirst, firstByte, firstMark, following,
      add_comm]
  · have h2 : ¬c.toNat ≤ 0xffff := Nat.not_le_of_lt hge
    have h0 : ¬c.toNat ≤ 0x7f := by omega
    have h1 : ¬c.toNat ≤ 0x7ff := by omega
    have hbound : c.toNat < 0x110000 := hlt
    have hfirst : c.toNat / 262144 % 8 = c.toNat / 262144 := by omega
    simp [String.utf8EncodeChar, hval, h0, h1, h2, hfirst, firstByte, firstMark, following,
      add_comm]
  · exact absurd hlt (Nat.not_lt_of_le hge)

theorem EncodedWith.byte_lt {c : Char} {count : Nat} (hc : EncodedWith c count) :
    firstByte c.toNat count < firstMark (count + 1) := by
  rcases hc with ⟨hge, hlt⟩
  rcases count with _ | _ | _ | _ | count
  all_goals simp only [firstByte, firstMark, firstCode] at hge hlt ⊢; omega

/-- A longer encoding has a larger first byte, and a larger code. -/
theorem EncodedWith.lt_of_count_lt {c d : Char} {count more : Nat} (hc : EncodedWith c count)
    (hd : EncodedWith d more) (hcount : count < more) :
    firstByte c.toNat count < firstByte d.toNat more ∧ c.toNat < d.toNat := by
  have hmark : firstMark (count + 1) ≤ firstMark more := firstMark_mono hcount
  have hcode : firstCode (count + 1) ≤ firstCode more := firstCode_mono hcount
  have hbyte := hc.byte_lt
  have hfirst : firstMark more ≤ firstByte d.toNat more := Nat.le_add_right _ _
  exact ⟨by omega, hc.code_lt.trans_le (hcode.trans hd.code_ge)⟩

theorem EncodedWith.firstByte_lt {c : Char} {count : Nat} (hc : EncodedWith c count) :
    firstByte c.toNat count < 256 := by
  have hmark : firstMark (count + 1) ≤ 248 := by
    rcases count with _ | _ | _ | count <;> simp [firstMark]
  have hbyte := hc.byte_lt
  omega

theorem EncodedWith.compare_append {c d : Char} {count more : Nat} (hc : EncodedWith c count)
    (hd : EncodedWith d more) (xs ys : List UInt8) :
    compare (String.utf8EncodeChar c ++ xs) (String.utf8EncodeChar d ++ ys) =
      (compare (firstByte c.toNat count) (firstByte d.toNat more)).then
        (compare (following c.toNat count ++ xs) (following d.toNat more ++ ys)) := by
  rw [hc.bytes_eq, hd.bytes_eq, List.cons_append, List.cons_append, List.compare_cons_cons,
    compare_ofNat hc.firstByte_lt hd.firstByte_lt]

/-- Encoded characters are compared by their codes, and what follows them only if they are the
same. -/
theorem compare_utf8EncodeChar (c d : Char) (xs ys : List UInt8) :
    compare (String.utf8EncodeChar c ++ xs) (String.utf8EncodeChar d ++ ys) =
      (compare c.toNat d.toNat).then (compare xs ys) := by
  rcases exists_encodedWith c with ⟨count, hc⟩
  rcases exists_encodedWith d with ⟨more, hd⟩
  rw [hc.compare_append hd]
  rcases Nat.lt_trichotomy count more with hlt | heq | hgt
  · rcases hc.lt_of_count_lt hd hlt with ⟨hbyte, hcode⟩
    rw [Nat.compare_eq_lt.mpr hbyte, Nat.compare_eq_lt.mpr hcode]
    rfl
  · rw [heq, firstByte, firstByte, compare_add_left, compare_following, ← Ordering.then_assoc,
      compare_div_mod]
  · rcases hd.lt_of_count_lt hc hgt with ⟨hbyte, hcode⟩
    rw [Nat.compare_eq_gt.mpr hbyte, Nat.compare_eq_gt.mpr hcode]
    rfl

/-! ## Texts -/

/-- The codes of the characters of a text. -/
def codes (cs : List Char) : List Nat :=
  cs.map Char.toNat

theorem compare_utf8 (cs ds : List Char) :
    compare (utf8 cs) (utf8 ds) = compare (codes cs) (codes ds) := by
  induction cs generalizing ds with
  | nil =>
      cases ds with
      | nil => rfl
      | cons d ds =>
          rcases exists_encodedWith d with ⟨count, hd⟩
          rw [utf8_cons, hd.bytes_eq]
          rfl
  | cons c cs ih =>
      cases ds with
      | nil =>
          rcases exists_encodedWith c with ⟨count, hc⟩
          rw [utf8_cons, hc.bytes_eq]
          rfl
      | cons d ds =>
          change _ = compare (c.toNat :: codes cs) (d.toNat :: codes ds)
          rw [utf8_cons, utf8_cons, compare_utf8EncodeChar, ih, List.compare_cons_cons]

end CaskOrder.Text
