import CaskOrder.Json.Reader

/-!
# String literals

The body of a string literal is read character by character up to the closing quote.
A character is written as itself, as a backslash with a letter, or as a backslash and
`u` with four hexadecimal digits.  Such a unit between `d800` and `dbff` stands for half
a character, and the other half, between `dc00` and `dfff`, has to follow at once.
-/

namespace CaskOrder.Json

def hexDigit? (c : Char) : Option Nat :=
  if '0' ≤ c ∧ c ≤ '9' then some (c.toNat - '0'.toNat)
  else if 'a' ≤ c ∧ c ≤ 'f' then some (c.toNat - 'a'.toNat + 10)
  else if 'A' ≤ c ∧ c ≤ 'F' then some (c.toNat - 'A'.toNat + 10)
  else none

def codeUnit (cs : List Char) : Outcome Nat :=
  match (cs.take 4).mapM hexDigit? with
  | some [a, b, c, d] => .ok (((a * 16 + b) * 16 + c) * 16 + d, cs.drop 4)
  | _ =>
    if Text.byteCount cs < 4 then .error (.here (.unexpectedEnd .string) [])
    else .error ⟨.invalidEscape, Text.byteCount cs - 4⟩

def isHighHalf (unit : Nat) : Bool :=
  0xd800 ≤ unit && unit ≤ 0xdbff

def isLowHalf (unit : Nat) : Bool :=
  0xdc00 ≤ unit && unit ≤ 0xdfff

/-- The character that is written as two halves. -/
def joinHalves (high low : Nat) : Char :=
  Char.ofNat (0x10000 + (high - 0xd800) * 0x400 + (low - 0xdc00))

/-- A character written as one unit or as two, behind the first `\u`. -/
def unitChar (cs : List Char) : Outcome Char :=
  (codeUnit cs).andThen fun high rest =>
    if isLowHalf high then .error (.here .loneSurrogate rest)
    else if isHighHalf high then
      (word (.unexpectedEnd .string) .unfinishedPair ['\\', 'u'] rest).andThen fun _ rest =>
        (codeUnit rest).andThen fun low rest =>
          if isLowHalf low then .ok (joinHalves high low, rest)
          else .error (.here .loneSurrogate rest)
    else .ok (Char.ofNat high, rest)

/-- The letters that may follow a backslash, with the characters they stand for. -/
def escapeLetters : List (Char × Char) :=
  [('"', '"'), ('\\', '\\'), ('/', '/'), ('b', '\x08'), ('f', '\x0c'), ('n', '\n'),
   ('r', '\r'), ('t', '\t')]

def escape (units : List Char → Outcome α) (letter : Char → α) : List Char → Outcome α
  | [] => .error (.here (.unexpectedEnd .string) [])
  | 'u' :: rest => units rest
  | c :: rest =>
    match escapeLetters.lookup c with
    | some meaning => .ok (letter meaning, rest)
    | none => .error (.next .invalidEscape (c :: rest))

def isControl (c : Char) : Bool :=
  c.toNat < 0x20

/-- The next character of a string, or none at the closing quote. -/
def stringChar : List Char → Outcome (Option Char)
  | [] => .error (.here (.unexpectedEnd .string) [])
  | '"' :: rest => .ok (none, rest)
  | '\\' :: rest =>
    escape (fun cs => (unitChar cs).andThen fun c rest => .ok (some c, rest)) some rest
  | c :: rest =>
    if isControl c then .error (.here .controlCharacter rest) else .ok (some c, rest)

theorem codeUnit_neverGrows : NeverGrows codeUnit := by
  intro cs n rest h
  simp only [codeUnit] at h
  split at h
  · cases h
    simp
  · split at h <;> simp at h

theorem unitChar_neverGrows : NeverGrows unitChar := by
  refine codeUnit_neverGrows.andThen fun high => ?_
  intro cs c rest h
  simp only at h
  split at h
  · simp at h
  · split at h
    · refine NeverGrows.andThen (word_neverGrows _ _ _) (fun _ => ?_) h
      refine codeUnit_neverGrows.andThen fun low => ?_
      intro cs c rest h
      simp only at h
      split at h
      · exact neverGrows_ok _ h
      · simp at h
    · exact neverGrows_ok _ h

theorem escape_shrinks {units : List Char → Outcome α} {letter : Char → α}
    (hunits : NeverGrows units) : Shrinks (escape units letter) := by
  intro cs a rest h
  simp only [escape] at h
  split at h
  · simp at h
  · exact Nat.lt_succ_of_le (hunits h)
  · split at h
    · cases h
      exact Nat.lt_succ_self _
    · simp at h

theorem stringChar_shrinks : Shrinks stringChar := by
  intro cs a rest h
  simp only [stringChar] at h
  split at h
  · simp at h
  · cases h
    exact Nat.lt_succ_self _
  · refine Nat.lt_trans (escape_shrinks ?_ h) (Nat.lt_succ_self _)
    exact unitChar_neverGrows.andThen fun c => neverGrows_ok (some c)
  · split at h
    · simp at h
    · cases h
      exact Nat.lt_succ_self _

def stringRound (taken : List Char) : Reader (Turn (List Char) String) where
  read cs := (stringChar cs).andThen fun c? rest =>
    match c? with
    | none => .ok (.done (String.ofList taken.reverse), rest)
    | some c => .ok (.more (c :: taken), rest)
  shrinks := stringChar_shrinks.andThen fun c? => by
    cases c? with
    | none => exact neverGrows_ok _
    | some c => exact neverGrows_ok _

/-- The rest of a string literal, behind its opening quote. -/
def stringBody : Reader String :=
  .loop stringRound []

end CaskOrder.Json
