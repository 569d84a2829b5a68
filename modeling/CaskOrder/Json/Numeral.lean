import CaskOrder.Json.Reader

/-!
# Numerals

A numeral has a whole part, and may have a fraction and an exponent.  Reading it is
separate from finding its value: a numeral that is passed over is not looked at any
further.

Its value keeps as many leading digits as fit below `2 ^ 64` and counts the places of
the others.  A numeral without fraction and exponent that fits is an integer.  All others
are floating-point numbers: the kept digits are rounded, and then multiplied or divided
by a power of ten.
-/

namespace CaskOrder.Json

structure Numeral where
  whole : List Char
  fraction? : Option (List Char)
  exponent? : Option (Bool × List Char)
deriving DecidableEq, Repr

namespace Numeral

/-- At least one digit, which is wanted even if the text has ended. -/
def digits (atEnd : Cause) (cs : List Char) : Outcome (List Char) :=
  match cs with
  | [] => .error (.here atEnd [])
  | c :: rest =>
    if c.isDigit then .ok (c :: rest.takeWhile Char.isDigit, rest.dropWhile Char.isDigit)
    else .error (.next .invalidNumber (c :: rest))

/-- The digits of the whole part.  A leading zero stands alone. -/
def wholePart (atEnd : Cause) (cs : List Char) : Outcome (List Char) :=
  match cs with
  | '0' :: c :: rest =>
    if c.isDigit then .error (.next .invalidNumber (c :: rest)) else .ok (['0'], c :: rest)
  | _ => digits atEnd cs

def fractionPart (atEnd : Cause) (cs : List Char) : Outcome (Option (List Char)) :=
  match cs with
  | '.' :: rest => (digits atEnd rest).andThen fun ds rest => .ok (some ds, rest)
  | _ => .ok (none, cs)

def exponentSign (cs : List Char) : Bool × List Char :=
  match cs with
  | '+' :: rest => (false, rest)
  | '-' :: rest => (true, rest)
  | _ => (false, cs)

def exponentPart (atEnd : Cause) (cs : List Char) : Outcome (Option (Bool × List Char)) :=
  match cs with
  | c :: rest =>
    if c = 'e' ∨ c = 'E' then
      (digits atEnd (exponentSign rest).2).andThen fun ds rest' =>
        .ok (some ((exponentSign rest).1, ds), rest')
    else .ok (none, cs)
  | [] => .ok (none, cs)

/-- A numeral without its sign.  If the text ends where a digit is wanted, that is for
the given cause. -/
def read (atEnd : Cause) (cs : List Char) : Outcome Numeral :=
  (wholePart atEnd cs).andThen fun whole rest =>
    (fractionPart atEnd rest).andThen fun fraction? rest =>
      (exponentPart atEnd rest).andThen fun exponent? rest =>
        .ok (⟨whole, fraction?, exponent?⟩, rest)

theorem digits_shrinks (atEnd : Cause) : Shrinks (digits atEnd) := by
  intro cs ds rest h
  fun_cases digits atEnd cs with
  | case1 => simp [digits] at h
  | case2 c cs hc =>
    simp only [digits, hc, if_true, Except.ok.injEq, Prod.mk.injEq] at h
    have := (List.dropWhile_suffix (l := cs) Char.isDigit).length_le
    simp only [← h.2, List.length_cons]
    omega
  | case3 c cs hc => simp [digits, hc] at h

theorem wholePart_shrinks (atEnd : Cause) : Shrinks (wholePart atEnd) := by
  intro cs ds rest h
  simp only [wholePart] at h
  split at h
  · split at h
    · simp at h
    · cases h
      exact Nat.lt_succ_self _
  · exact digits_shrinks atEnd h

theorem fractionPart_neverGrows (atEnd : Cause) : NeverGrows (fractionPart atEnd) := by
  intro cs f rest h
  simp only [fractionPart] at h
  split at h
  · obtain ⟨ds, rest', hread, h⟩ := Outcome.andThen_eq_ok.mp h
    cases h
    exact Nat.le_succ_of_le (Nat.le_of_lt (digits_shrinks atEnd hread))
  · exact neverGrows_ok _ h

theorem length_exponentSign_le (cs : List Char) : (exponentSign cs).2.length ≤ cs.length := by
  fun_cases exponentSign cs <;> simp

theorem exponentPart_neverGrows (atEnd : Cause) : NeverGrows (exponentPart atEnd) := by
  intro cs f rest h
  simp only [exponentPart] at h
  split at h
  · next c tail =>
    split at h
    · obtain ⟨ds, rest', hread, h⟩ := Outcome.andThen_eq_ok.mp h
      cases h
      have hdigits := digits_shrinks atEnd hread
      have hsign := length_exponentSign_le tail
      simp only [List.length_cons]
      omega
    · exact neverGrows_ok _ h
  · exact neverGrows_ok _ h

theorem read_shrinks (atEnd : Cause) : Shrinks (read atEnd) :=
  (wholePart_shrinks atEnd).andThen fun _ =>
    (fractionPart_neverGrows atEnd).andThen fun _ =>
      (exponentPart_neverGrows atEnd).andThen fun _ => neverGrows_ok _

/-- Appends digits to a number as long as it stays below the bound, and returns the
digits that are left. -/
def absorb (bound : Nat) (n : Nat) : List Char → Nat × List Char
  | [] => (n, [])
  | d :: ds =>
    let extended := n * 10 + (d.toNat - '0'.toNat)
    if extended < bound then absorb bound extended ds else (n, d :: ds)

/-- Scales a number by a power of ten.  A power beyond the range of floating-point
numbers is applied in several steps, and none if the result gets too large. -/
def scale (x : Float) (power : Int) : Option Float :=
  if power.natAbs ≤ 308 then
    let scaled := if power < 0 then x / Float.ofScientific 1 false power.natAbs
      else x * Float.ofScientific 1 false power.natAbs
    if scaled.isInf then none else some scaled
  else if x == 0 then some x
  else if 0 < power then none
  else scale (x / Float.ofScientific 1 false 308) (power + 308)
termination_by power.natAbs

def signed (negative : Bool) (x : Float) : Float :=
  if negative then -x else x

/-- The kept digits of the whole part and the fraction, and the power of ten that they
are to be multiplied by. -/
def significand (numeral : Numeral) : Nat × Int :=
  let (whole, extra) := absorb (Nat.pow 2 64) 0 numeral.whole
  let ds := numeral.fraction?.getD []
  let (all, dropped) := absorb (Nat.pow 2 64) whole ds
  (all, (extra.length : Int) - (ds.length - dropped.length : Nat))

/-- The value of a numeral that is followed by the given rest. -/
def value (numeral : Numeral) (negative : Bool) (rest : List Char) : Except Fault Found :=
  let (n, power) := numeral.significand
  let float (power : Int) : Except Fault Found :=
    match scale (Float.ofScientific n false 0) power with
    | some x => .ok (.float (signed negative x))
    | none => .error (.here .numberOutOfRange rest)
  match numeral.exponent? with
  | some (down, ds) =>
    match absorb (Nat.pow 2 31) 0 ds with
    | (e, []) => float (if down then power - e else power + e)
    | (_, _ :: unread) =>
      if n ≠ 0 ∧ ¬down then .error (.here .numberOutOfRange (unread ++ rest))
      else .ok (.float (signed negative 0))
  | none =>
    if numeral.fraction?.isSome ∨ power ≠ 0 then float power
    else if ¬negative then .ok (.integer n)
    else if 1 ≤ n ∧ n ≤ Nat.pow 2 63 then .ok (.integer (-n))
    else .ok (.float (signed true (Float.ofScientific n false 0)))

end Numeral
end CaskOrder.Json
