import CaskOrder.Json.Numeral
import CaskOrder.Json.StringLiteral

/-!
# Values of the wrong kind

A value that is not of the wanted kind is named in the message about it, so a literal,
a numeral or a string is read to its end first, and whatever is wrong with it comes
before the mismatch itself.  A list or an object is not entered.
-/

namespace CaskOrder.Json

/-- The remaining letters of `null`, `true` or `false`. -/
def keyword : List Char → List Char → Outcome Unit :=
  word (.unexpectedEnd .value) .expectedIdent

def foundNumeral (negative : Bool) (cs : List Char) : Outcome Found :=
  (Numeral.read (.unexpectedEnd .value) cs).andThen fun numeral rest =>
    (numeral.value negative rest).map fun found => (found, rest)

def foundValue : List Char → Outcome Found
  | 'n' :: rest => (keyword ['u', 'l', 'l'] rest).andThen fun _ rest => .ok (.null, rest)
  | 't' :: rest =>
    (keyword ['r', 'u', 'e'] rest).andThen fun _ rest => .ok (.bool true, rest)
  | 'f' :: rest =>
    (keyword ['a', 'l', 's', 'e'] rest).andThen fun _ rest => .ok (.bool false, rest)
  | '"' :: rest => (stringBody.read rest).andThen fun text rest => .ok (.string text, rest)
  | '[' :: rest => .ok (.list, '[' :: rest)
  | '{' :: rest => .ok (.object, '{' :: rest)
  | '-' :: rest => foundNumeral true rest
  | cs =>
    if cs.head?.any Char.isDigit then foundNumeral false cs
    else .error (.next .expectedValue cs)

/-- What is wrong with a text that does not begin with a value of the wanted kind. -/
def mismatch (expected : Expected) (cs : List Char) : Fault :=
  match foundValue cs with
  | .error fault => fault
  | .ok (found, rest) => .here (.wrongType found expected) rest

/-- The mark that every value of the wanted kind begins with. -/
def opening (mark : Char) (expected : Expected) (cs : List Char) : Outcome Unit :=
  match skipBlanks cs with
  | [] => .error (.next (.unexpectedEnd .value) [])
  | c :: rest => if c = mark then .ok ((), rest) else .error (mismatch expected (c :: rest))

theorem opening_shrinks (mark : Char) (expected : Expected) :
    Shrinks (opening mark expected) := by
  intro cs _ rest h
  simp only [opening] at h
  split at h
  · simp at h
  · next c rest' heq =>
    split at h
    · cases h
      exact length_lt_of_skipBlanks heq
    · simp at h

def string : Reader String where
  read cs := (opening '"' .string cs).andThen fun _ rest => stringBody.read rest
  shrinks := (opening_shrinks _ _).andThen fun _ => stringBody.shrinks.neverGrows

end CaskOrder.Json
