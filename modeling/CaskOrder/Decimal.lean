/-!
# Decimals

A decimal is a list of digits `d₁ … dₘ` with the place of its point: it stands for
`0.d₁…dₘ × 10 ^ point`.  The digits of a number that is written out in full are its
digits without the zeros at their end.
-/

namespace CaskOrder

/-- The number `0.d₁…dₘ × 10 ^ point`. -/
structure Decimal where
  digits : List Char
  point : Int
deriving DecidableEq, Repr

namespace Decimal

def stripZeros (digits : List Char) : List Char :=
  (digits.reverse.dropWhile (· = '0')).reverse

/-- The decimal of `n × 10 ^ scale`. -/
def ofScaled (n : Nat) (scale : Int) : Decimal where
  digits := stripZeros (Nat.toDigits 10 n)
  point := (Nat.toDigits 10 n).length + scale

end Decimal
end CaskOrder
