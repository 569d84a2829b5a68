import CaskOrder.Decimal.Shortest
import Mathlib.Algebra.Order.Field.Power
import Mathlib.Algebra.Order.Ring.Rat
import Mathlib.Data.List.TakeWhile
import Mathlib.Tactic.Ring
import Mathlib.Tactic.FieldSimp

/-!
# The shortest decimal reads back

A binary number is what every number within half a step of it rounds to.  The decimal that is
written for it is one of these, and none of them has fewer digits.
-/

namespace CaskOrder.Decimal

/-! ## Numbers -/

/-- The number that a decimal stands for. -/
def toRat (d : Decimal) : ℚ :=
  Nat.ofDigitChars 10 d.digits 0 * 10 ^ (d.point - d.digits.length)

/-- The distance to the next larger number. -/
def Binary.step (x : Binary) : ℚ :=
  2 ^ x.exponent

/-- Reading the number `r` gives the binary number: it is at most half a step away, or a quarter
on the lower side of a narrow number, and that far only if the significand is even. -/
def Binary.ReadFrom (x : Binary) (r : ℚ) : Prop :=
  let low := x.significand * x.step - x.step / if x.narrow then 4 else 2
  let high := x.significand * x.step + x.step / 2
  if x.significand % 2 = 0 then low ≤ r ∧ r ≤ high else low < r ∧ r < high

/-! ## Digits -/

theorem stripZeros_append_replicate (digits : List Char) :
    ∃ zeros, digits = stripZeros digits ++ List.replicate zeros '0' := by
  refine ⟨(digits.reverse.takeWhile (· = '0')).length, ?_⟩
  have hzeros : digits.reverse.takeWhile (· = '0') =
      List.replicate (digits.reverse.takeWhile (· = '0')).length '0' := by
    apply List.eq_replicate_of_mem
    intro c hmem
    simpa using List.mem_takeWhile_imp hmem
  rw [← List.reverse_replicate, ← hzeros, stripZeros, ← List.reverse_append,
    List.takeWhile_append_dropWhile, List.reverse_reverse]

theorem toRat_ofScaled (n : Nat) (scale : Int) : (ofScaled n scale).toRat = n * 10 ^ scale := by
  obtain ⟨zeros, hzeros⟩ := stripZeros_append_replicate (Nat.toDigits 10 n)
  have hvalue : Nat.ofDigitChars 10 (stripZeros (Nat.toDigits 10 n)) 0 * 10 ^ zeros = n := by
    have hn := Nat.ofDigitChars_ten_toDigits (n := n)
    rw [hzeros, Nat.ofDigitChars_append, Nat.ofDigitChars_replicate_zero] at hn
    rw [Nat.mul_comm]
    exact hn
  have hlength : (Nat.toDigits 10 n).length =
      (stripZeros (Nat.toDigits 10 n)).length + zeros := by
    conv_lhs => rw [hzeros, List.length_append, List.length_replicate]
  have hexponent : ((Nat.toDigits 10 n).length : Int) + scale -
      (stripZeros (Nat.toDigits 10 n)).length = zeros + scale := by
    omega
  calc (ofScaled n scale).toRat
      = Nat.ofDigitChars 10 (stripZeros (Nat.toDigits 10 n)) 0 * 10 ^ ((zeros : Int) + scale) := by
        rw [toRat, ofScaled, hexponent]
    _ = (Nat.ofDigitChars 10 (stripZeros (Nat.toDigits 10 n)) 0 * 10 ^ zeros : Nat) *
          10 ^ scale := by
        rw [zpow_add₀ (by norm_num), zpow_natCast]
        push_cast
        ring
    _ = n * 10 ^ scale := by rw [hvalue]

theorem toDigits_mul_pow {n : Nat} (hpos : 0 < n) (zeros : Nat) :
    Nat.toDigits 10 (n * 10 ^ zeros) = Nat.toDigits 10 n ++ List.replicate zeros '0' := by
  induction zeros with
  | zero => simp
  | succ zeros ih =>
      have hpow : 0 < n * 10 ^ zeros := Nat.mul_pos hpos (Nat.pow_pos (by decide))
      have happend := Nat.toDigits_append_toDigits (b := 10) (d := 0) (by decide) hpow (by decide)
      rw [Nat.pow_succ, ← Nat.mul_assoc, Nat.mul_comm _ 10, ← Nat.add_zero (10 * _), ← happend,
        ih, List.append_assoc, List.replicate_succ', Nat.toDigits_zero]

theorem stripZeros_append_zeros (digits : List Char) (zeros : Nat) :
    stripZeros (digits ++ List.replicate zeros '0') = stripZeros digits := by
  rw [stripZeros, List.reverse_append, List.reverse_replicate, List.dropWhile_append_of_pos]
  · rfl
  · intro c hmem
    simp [List.eq_of_mem_replicate hmem]

theorem length_stripZeros_le (digits : List Char) :
    (stripZeros digits).length ≤ digits.length := by
  calc (stripZeros digits).length
      = (digits.reverse.dropWhile (· = '0')).length := by rw [stripZeros, List.length_reverse]
    _ ≤ digits.reverse.length := (List.dropWhile_suffix _).length_le
    _ = digits.length := List.length_reverse

theorem length_digits_ofScaled_le (n zeros : Nat) (scale : Int) :
    (ofScaled (n * 10 ^ zeros) scale).digits.length ≤ (Nat.toDigits 10 n).length := by
  rcases Nat.eq_zero_or_pos n with hzero | hpos
  · subst hzero
    rw [Nat.zero_mul]
    exact length_stripZeros_le _
  · change (stripZeros (Nat.toDigits 10 (n * 10 ^ zeros))).length ≤ _
    rw [toDigits_mul_pow hpos, stripZeros_append_zeros]
    exact length_stripZeros_le _

/-! ## The interval around a number -/

namespace Interval

/-- The interval has the number in it, be it whole or not. -/
def Within (i : Interval) (r : ℚ) : Prop :=
  if i.closed then i.low ≤ r ∧ r ≤ i.high else i.low < r ∧ r < i.high

variable {i : Interval} {step n : Nat}

theorem contains_iff_within : i.contains n = true ↔ i.Within n := by
  rw [contains, Within]
  split <;> simp

theorem Within.of_between {a b r : ℚ} (ha : i.Within a) (hb : i.Within b) (har : a ≤ r)
    (hrb : r ≤ b) : i.Within r := by
  rw [Within] at ha hb ⊢
  split
  · next hclosed =>
    rw [if_pos hclosed] at ha hb
    exact ⟨ha.1.trans har, hrb.trans hb.2⟩
  · next hopen =>
    rw [if_neg hopen] at ha hb
    exact ⟨ha.1.trans_le har, hrb.trans_lt hb.2⟩

/-- A hit is one of the two multiples beside the value. -/
theorem hit?_eq_some (h : i.hit? step = some n) :
    i.Within n ∧ ∃ k ≤ i.value / step + 1, n = k * step := by
  simp only [hit?, ← Nat.add_one_mul] at h
  rw [← contains_iff_within]
  split at h
  · next hboth =>
    obtain ⟨hbelow, habove⟩ := Bool.and_eq_true_iff.mp hboth
    cases h
    split
    · exact ⟨hbelow, _, Nat.le_succ _, rfl⟩
    · split
      · exact ⟨habove, _, Nat.le_refl _, rfl⟩
      · split
        · exact ⟨hbelow, _, Nat.le_succ _, rfl⟩
        · exact ⟨habove, _, Nat.le_refl _, rfl⟩
  · split at h
    · next hbelow =>
      cases h
      exact ⟨hbelow, _, Nat.le_succ _, rfl⟩
    · split at h
      · next habove =>
        cases h
        exact ⟨habove, _, Nat.le_refl _, rfl⟩
      · cases h

theorem hit?_eq_none (h : i.hit? step = none) :
    ¬i.Within (i.value / step * step : Nat) ∧
      ¬i.Within ((i.value / step + 1) * step : Nat) := by
  simp only [hit?, ← Nat.add_one_mul] at h
  rw [← contains_iff_within, ← contains_iff_within]
  split at h
  · cases h
  · split at h
    · cases h
    · split at h
      · cases h
      · next hbelow habove => exact ⟨hbelow, habove⟩

/-- Without a hit there is no multiple in the interval at all: the two beside the value are
between the value and any other one. -/
theorem not_within_of_hit?_eq_none (hvalue : i.Within i.value) (hstep : 0 < step)
    (hnone : i.hit? step = none) (k : Nat) : ¬i.Within (k * step : Nat) := by
  obtain ⟨hbelow, habove⟩ := hit?_eq_none hnone
  intro hk
  rcases Nat.lt_or_ge (i.value / step) k with hlt | hge
  · have hnext : i.value < (i.value / step + 1) * step := by
      rw [Nat.mul_comm]
      exact Nat.lt_mul_div_succ i.value hstep
    have hle : (i.value / step + 1) * step ≤ k * step := Nat.mul_le_mul_right step hlt
    exact habove (hvalue.of_between hk (by exact_mod_cast hnext.le) (by exact_mod_cast hle))
  · have hle : k * step ≤ i.value / step * step := Nat.mul_le_mul_right step hge
    have hvalueLe : i.value / step * step ≤ i.value := Nat.div_mul_le_self i.value step
    exact hbelow (hk.of_between hvalue (by exact_mod_cast hle) (by exact_mod_cast hvalueLe))

/-- What is selected is a multiple of the largest power of ten, up to the given one, that has a
multiple in the interval. -/
theorem select_eq (hvalue : i.Within i.value) (bound : Nat) :
    ∃ power ≤ bound, ∃ k ≤ i.value / 10 ^ power + 1,
      i.select bound = k * 10 ^ power ∧ i.Within (i.select bound) ∧
        ∀ larger, power < larger → larger ≤ bound → ∀ n : Nat,
          ¬i.Within (n * 10 ^ larger : Nat) := by
  induction bound with
  | zero =>
      refine ⟨0, Nat.le_refl 0, ?_⟩
      rw [select]
      cases hhit : i.hit? 1 with
      | none =>
          have hno := not_within_of_hit?_eq_none hvalue Nat.one_pos hhit i.value
          rw [Nat.mul_one] at hno
          exact absurd hvalue hno
      | some n =>
          obtain ⟨hwithin, k, hk, hn⟩ := hit?_eq_some hhit
          exact ⟨k, hk, hn, hwithin, fun larger hlt hle => absurd hle (Nat.not_le_of_lt hlt)⟩
  | succ bound ih =>
      rw [select, Nat.pow_eq]
      cases hhit : i.hit? (10 ^ (bound + 1)) with
      | some n =>
          obtain ⟨hwithin, k, hk, hn⟩ := hit?_eq_some hhit
          exact ⟨bound + 1, Nat.le_refl _, k, hk, hn, hwithin,
            fun larger hlt hle => absurd hle (Nat.not_le_of_lt hlt)⟩
      | none =>
          obtain ⟨power, hpower, k, hk, hselect, hwithin, hlargest⟩ := ih
          refine ⟨power, Nat.le_succ_of_le hpower, k, hk, hselect, hwithin, ?_⟩
          intro larger hlt hle
          rcases Nat.lt_or_eq_of_le hle with hless | heq
          · exact hlargest larger hlt (Nat.le_of_lt_succ hless)
          · subst heq
            exact not_within_of_hit?_eq_none hvalue (Nat.pow_pos (by decide)) hhit

theorem within_select (hvalue : i.Within i.value) (bound : Nat) : i.Within (i.select bound) := by
  obtain ⟨_, _, _, _, _, hwithin, _⟩ := select_eq hvalue bound
  exact hwithin

/-- A number with fewer digits than `k` lies below a power of ten that is at most `k`, and that
power would be on the coarser grid. -/
theorem length_toDigits_le_of_within {k n power : Nat} {scale : Int}
    (hk : i.Within (k * 10 ^ power : Nat))
    (hcoarse : ∀ m : Nat, ¬i.Within (m * 10 ^ (power + 1) : Nat))
    (hn : i.Within (n * 10 ^ scale)) :
    (Nat.toDigits 10 k).length ≤ (Nat.toDigits 10 n).length := by
  have hscale : scale ≤ power := by
    by_contra hgt
    obtain ⟨j, hj⟩ := Int.eq_ofNat_of_zero_le (a := scale - (power + 1)) (by omega)
    have hscale : scale = ((j + (power + 1) : Nat) : Int) := by omega
    rw [hscale, zpow_natCast, pow_add, ← mul_assoc] at hn
    exact hcoarse (n * 10 ^ j) (by exact_mod_cast hn)
  by_contra hlonger
  have hpos : 0 < (Nat.toDigits 10 n).length := Nat.length_toDigits_pos
  have hnLt : n < 10 ^ (Nat.toDigits 10 n).length :=
    (Nat.length_toDigits_le_iff (by decide) hpos).mp (Nat.le_refl _)
  have hkGe : 10 ^ (Nat.toDigits 10 n).length ≤ k := by
    by_contra hlt
    exact hlonger ((Nat.length_toDigits_le_iff (by decide) hpos).mpr (Nat.lt_of_not_le hlt))
  obtain ⟨e, he⟩ := Nat.exists_eq_succ_of_ne_zero hpos.ne'
  rw [he] at hnLt hkGe
  apply hcoarse (10 ^ e)
  have hshift : 10 ^ e * 10 ^ (power + 1) = 10 ^ (e + 1) * 10 ^ power := by ring
  rw [hshift]
  refine hn.of_between hk ?_ (by exact_mod_cast Nat.mul_le_mul_right _ hkGe)
  calc (n : ℚ) * 10 ^ scale ≤ n * 10 ^ (power : Int) :=
        mul_le_mul_of_nonneg_left (zpow_le_zpow_right₀ (by norm_num) hscale) (Nat.cast_nonneg n)
    _ ≤ (10 ^ (e + 1) * 10 ^ power : Nat) := by
        rw [zpow_natCast]
        exact_mod_cast Nat.mul_le_mul_right _ hnLt.le

/-- No number of the interval has fewer digits than the selected one has in front of its
zeros. -/
theorem select_fewest {bound n : Nat} {scale : Int} (hvalue : i.Within i.value)
    (hbound : i.value < 10 ^ (bound + 1)) (hn : i.Within (n * 10 ^ scale)) :
    ∃ k zeros, i.select bound = k * 10 ^ zeros ∧
      (Nat.toDigits 10 k).length ≤ (Nat.toDigits 10 n).length := by
  obtain ⟨power, hpower, k, hk, hselect, hwithin, hlargest⟩ := select_eq hvalue bound
  have hpos : 0 < (Nat.toDigits 10 n).length := Nat.length_toDigits_pos
  rcases Nat.lt_or_eq_of_le hpower with hlt | heq
  · refine ⟨k, power, hselect, ?_⟩
    rw [hselect] at hwithin
    exact length_toDigits_le_of_within hwithin (hlargest (power + 1) (Nat.lt_succ_self _) hlt) hn
  · subst heq
    have hquotient : i.value / 10 ^ power < 10 := by
      rw [Nat.div_lt_iff_lt_mul (Nat.pow_pos (by decide)), Nat.mul_comm, ← Nat.pow_succ]
      exact hbound
    rcases Nat.lt_or_ge k 10 with hdigit | hten
    · refine ⟨k, power, hselect, Nat.le_trans ?_ hpos⟩
      exact (Nat.length_toDigits_le_iff (by decide) Nat.one_pos).mpr hdigit
    · have hk : k = 10 := by omega
      refine ⟨1, power + 1, ?_, hpos⟩
      rw [hselect, hk, Nat.pow_succ, Nat.one_mul, Nat.mul_comm]

/-! ## The interval around a binary number -/

variable {x : Binary}

theorem quarter_pos (x : Binary) : 0 < x.quarter := by
  rw [Binary.quarter]
  split
  · exact Nat.pow_pos (by decide)
  · exact Nat.pow_pos (by decide)

theorem quarter_mul_scale (x : Binary) :
    (x.quarter : ℚ) * 10 ^ (around x).scale = x.step / 4 := by
  rw [Binary.quarter, around, Binary.step]
  dsimp only
  split
  · next hlarge =>
    obtain ⟨j, hj⟩ := Int.eq_ofNat_of_zero_le (a := x.exponent - 2) (by omega)
    have hexponent : x.exponent = (j : Int) + 2 := by omega
    rw [hj, hexponent, zpow_add₀ (by norm_num), zpow_zero, Int.toNat_natCast, Nat.pow_eq]
    push_cast
    norm_num
  · next hsmall =>
    obtain ⟨j, hj⟩ := Int.eq_ofNat_of_zero_le (a := 2 - x.exponent) (by omega)
    have hexponent : x.exponent = 2 + -(j : Int) := by omega
    have hscale : x.exponent - 2 = -(j : Int) := by omega
    have hten : (10 : ℚ) ^ j = 5 ^ j * 2 ^ j := by rw [← mul_pow]; norm_num
    rw [hj, hscale, hexponent, zpow_add₀ (by norm_num), Int.toNat_natCast, Nat.pow_eq, zpow_neg,
      zpow_neg, zpow_natCast, zpow_natCast, hten]
    push_cast
    field_simp

theorem within_value_around (hpos : 0 < x.significand) :
    (around x).Within (around x).value := by
  have hlow : (around x).low < (around x).value := by
    refine Nat.mul_lt_mul_of_pos_right ?_ (quarter_pos x)
    split <;> omega
  have hhigh : (around x).value < (around x).high :=
    Nat.mul_lt_mul_of_pos_right (by omega) (quarter_pos x)
  rw [Within]
  split
  · exact ⟨by exact_mod_cast hlow.le, by exact_mod_cast hhigh.le⟩
  · exact ⟨by exact_mod_cast hlow, by exact_mod_cast hhigh⟩

/-- The interval holds, in its own units, the numbers that are read as the binary one. -/
theorem readFrom_iff_within (hpos : 0 < x.significand) (r : ℚ) :
    x.ReadFrom (r * 10 ^ (around x).scale) ↔ (around x).Within r := by
  have hunit : (0 : ℚ) < 10 ^ (around x).scale := by positivity
  have hquarter := quarter_mul_scale x
  have hlow : (x.significand * x.step - x.step / if x.narrow then 4 else 2 : ℚ) =
      (around x).low * 10 ^ (around x).scale := by
    have hle : (if x.narrow then 1 else 2) ≤ 4 * x.significand := by split <;> omega
    rw [show (around x).low = (4 * x.significand - if x.narrow then 1 else 2) * x.quarter from rfl,
      Nat.cast_mul, Nat.cast_sub hle, mul_assoc, hquarter]
    split
    · push_cast
      ring
    · push_cast
      ring
  have hhigh : (x.significand * x.step + x.step / 2 : ℚ) =
      (around x).high * 10 ^ (around x).scale := by
    rw [show (around x).high = (4 * x.significand + 2) * x.quarter from rfl, Nat.cast_mul,
      mul_assoc, hquarter]
    push_cast
    ring
  simp only [Binary.ReadFrom, Within, hlow, hhigh, mul_le_mul_iff_left₀ hunit,
    mul_lt_mul_iff_left₀ hunit]
  simp [around]

end Interval

/-! ## The decimal of fewest digits -/

variable {x : Binary}

/-- The shortest decimal is read as the number that it is written for. -/
theorem readFrom_shortest (hpos : 0 < x.significand) : x.ReadFrom (shortest x).toRat := by
  rw [shortest, toRat_ofScaled, Interval.readFrom_iff_within hpos]
  exact Interval.within_select (Interval.within_value_around hpos) _

/-- No decimal with fewer digits is read as the number. -/
theorem length_digits_shortest_le (hpos : 0 < x.significand) {n : Nat} {scale : Int}
    (hread : x.ReadFrom (n * 10 ^ scale)) :
    (shortest x).digits.length ≤ (Nat.toDigits 10 n).length := by
  have hvalue := Interval.within_value_around hpos
  have hunits : (n * 10 ^ scale : ℚ) =
      n * 10 ^ (scale - (Interval.around x).scale) * 10 ^ (Interval.around x).scale := by
    rw [mul_assoc, ← zpow_add₀ (by norm_num), sub_add_cancel]
  rw [hunits, Interval.readFrom_iff_within hpos] at hread
  have hlength : 0 < (Nat.toDigits 10 (Interval.around x).value).length := Nat.length_toDigits_pos
  have hbound : (Interval.around x).value <
      10 ^ ((Nat.toDigits 10 (Interval.around x).value).length - 1 + 1) := by
    rw [Nat.sub_add_cancel hlength]
    exact (Nat.length_toDigits_le_iff (by decide) hlength).mp (Nat.le_refl _)
  obtain ⟨k, zeros, hselect, hle⟩ := Interval.select_fewest hvalue hbound hread
  rw [shortest, hselect]
  exact Nat.le_trans (length_digits_ofScaled_le k zeros _) hle

example : shortest ⟨7205759403792794, -56, false⟩ = ⟨['1'], 0⟩ := by decide +kernel

end CaskOrder.Decimal
