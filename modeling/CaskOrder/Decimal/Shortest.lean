import CaskOrder.Decimal

/-!
# The fewest digits that read back

A positive binary number `m × 2 ^ q` is what every real within half a step of it rounds
to; the two ends of that interval belong to it if and only if `m` is even.  Below a
power of two the step is half as wide, so there the lower end is nearer.

The interval is scaled to whole numbers.  Grids of powers of ten are then tried from the
coarsest to the finest.  If a grid has a point in the interval, one of the two points
beside the number itself is in it, so looking at those two finds the first grid with a
hit, and with it the fewest digits.  Of two hits the nearer one is taken, of two equally
near ones the one with the even last digit.
-/

namespace CaskOrder.Decimal

/-- The positive number `significand × 2 ^ exponent`.  It is narrow if the next smaller
number is only half as far away as the next larger one. -/
structure Binary where
  significand : Nat
  exponent : Int
  narrow : Bool
deriving DecidableEq, Repr

/-- The magnitude of a finite number. -/
def Binary.ofFloat (x : Float) : Binary :=
  let bits := x.toBits.toNat
  let fraction : Nat := bits % Nat.pow 2 52
  let biased : Nat := bits / Nat.pow 2 52 % Nat.pow 2 11
  if biased = 0 then ⟨fraction, -1074, false⟩
  else ⟨Nat.pow 2 52 + fraction, (biased : Int) - 1075, fraction == 0 && 1 < biased⟩

/-- A quarter of the last binary place, in units of the power of ten that makes it a
whole number. -/
def Binary.quarter (x : Binary) : Nat :=
  if 2 ≤ x.exponent then Nat.pow 2 (x.exponent - 2).toNat else Nat.pow 5 (2 - x.exponent).toNat

/-- A number and the interval around it, in units of `10 ^ scale`. -/
structure Interval where
  low : Nat
  value : Nat
  high : Nat
  closed : Bool
  scale : Int
deriving DecidableEq, Repr

namespace Interval

/-- The reals that round to the number, counted in quarters of its last binary place. -/
def around (x : Binary) : Interval where
  low := (4 * x.significand - if x.narrow then 1 else 2) * x.quarter
  value := 4 * x.significand * x.quarter
  high := (4 * x.significand + 2) * x.quarter
  closed := x.significand % 2 = 0
  scale := if 2 ≤ x.exponent then 0 else x.exponent - 2

def contains (i : Interval) (n : Nat) : Bool :=
  if i.closed then i.low ≤ n && n ≤ i.high else i.low < n && n < i.high

/-- The best multiple of `step` in the interval, if it holds one at all. -/
def hit? (i : Interval) (step : Nat) : Option Nat :=
  let below := i.value / step * step
  let above := below + step
  let nearer := if i.value - below < above - i.value then below
    else if above - i.value < i.value - below then above
    else if i.value / step % 2 = 0 then below
    else above
  if i.contains below && i.contains above then some nearer
  else if i.contains below then some below
  else if i.contains above then some above
  else none

/-- The best multiple of the largest power of ten, up to the given one, that has a
multiple in the interval. -/
def select (i : Interval) : Nat → Nat
  | 0 => (i.hit? 1).getD i.value
  | power + 1 => (i.hit? (Nat.pow 10 (power + 1))).getD (i.select power)

end Interval

/-- A decimal of fewest digits that rounds to the number. -/
def shortest (x : Binary) : Decimal :=
  let i := Interval.around x
  ofScaled (i.select ((Nat.toDigits 10 i.value).length - 1)) i.scale

end CaskOrder.Decimal
