import CaskOrder.Decimal.Shortest

/-!
# How a decimal is laid out

A layout says for which places of the point a decimal is written out with its point;
every other decimal is written with one digit before the point and an exponent.  A
decimal that is written out always has a digit on either side of its point, and an
exponent always has its sign.
-/

namespace CaskOrder.Decimal

/-- Decimals whose point lies between `lowest` and `highest` are written out. -/
structure Layout where
  lowest : Int
  highest : Int
deriving DecidableEq, Repr

namespace Layout

def writtenOut (digits : List Char) (point : Int) : List Char :=
  if point ≤ 0 then
    ['0', '.'] ++ List.replicate (-point).toNat '0' ++ digits
  else if digits.length ≤ point.toNat then
    digits ++ List.replicate (point.toNat - digits.length) '0' ++ ['.', '0']
  else
    digits.take point.toNat ++ ['.'] ++ digits.drop point.toNat

def withExponent (digits : List Char) (power : Int) : List Char :=
  let fraction := if digits.length ≤ 1 then [] else '.' :: digits.drop 1
  let sign := if power < 0 then '-' else '+'
  digits.take 1 ++ fraction ++ ['e', sign] ++ Nat.toDigits 10 power.natAbs

def write (layout : Layout) (d : Decimal) : List Char :=
  if layout.lowest ≤ d.point ∧ d.point ≤ layout.highest then writtenOut d.digits d.point
  else withExponent d.digits (d.point - 1)

/-- A finite number in its shortest form, with a sign if it is negative or negative
zero. -/
def writeFloat (layout : Layout) (x : Float) : String :=
  let sign := if x.toBits.toNat < Nat.pow 2 63 then [] else ['-']
  let magnitude := if x == 0 then ['0', '.', '0']
    else layout.write (shortest (Binary.ofFloat x))
  String.ofList (sign ++ magnitude)

end Layout
end CaskOrder.Decimal
