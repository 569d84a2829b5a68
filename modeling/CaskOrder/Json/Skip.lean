import CaskOrder.Json.Mismatch

/-!
# Values that are passed over

The value of an unknown key is passed over, but it has to be well-formed.  Its kind does
not matter, numerals may have any size, and a `\u` in a string needs its four digits
only.  Values may be nested to any depth: the brackets that are still open are kept in a
list, the innermost one first.
-/

namespace CaskOrder.Json

inductive Bracket where
  | list
  | object
deriving DecidableEq, Repr

namespace Bracket

def closing : Bracket → Char
  | list => ']'
  | object => '}'

def unfinished : Bracket → Unfinished
  | list => .list
  | object => .object

def expectedComma : Bracket → Cause
  | list => .expectedListComma
  | object => .expectedObjectComma

end Bracket

/-- What is to be passed over next: a value, the first item behind an opening bracket, or
what follows an item. -/
inductive Pending where
  | value (outer : List Bracket)
  | opened (inner : Bracket) (outer : List Bracket)
  | after (inner : Bracket) (outer : List Bracket)
deriving DecidableEq, Repr

/-- A value is complete, and with it the whole text that is passed over if the value was
in no bracket. -/
def Pending.completed : List Bracket → Turn Pending Unit
  | [] => .done ()
  | inner :: outer => .more (.after inner outer)

/-- The next character of a string, unless it is the closing quote.  A control character
is not taken off the text. -/
def skipChar : List Char → Outcome (Turn Unit Unit)
  | [] => .error (.here (.unexpectedEnd .string) [])
  | '"' :: rest => .ok (.done (), rest)
  | '\\' :: rest =>
    escape (fun cs => (codeUnit cs).andThen fun _ rest => .ok (.more (), rest))
      (fun _ => .more ()) rest
  | c :: rest =>
    if isControl c then .error (.here .controlCharacter (c :: rest)) else .ok (.more (), rest)

theorem skipChar_shrinks : Shrinks skipChar := by
  intro cs turn rest h
  simp only [skipChar] at h
  split at h
  · simp at h
  · cases h
    exact Nat.lt_succ_self _
  · refine Nat.lt_trans (escape_shrinks ?_ h) (Nat.lt_succ_self _)
    exact codeUnit_neverGrows.andThen fun _ => neverGrows_ok _
  · split at h
    · simp at h
    · cases h
      exact Nat.lt_succ_self _

def skipString : Reader Unit :=
  .loop (fun _ => ⟨skipChar, skipChar_shrinks⟩) ()

def skipNumeral (cs : List Char) : Outcome Unit :=
  (Numeral.read .invalidNumber cs).andThen fun _ rest => .ok ((), rest)

/-- A value that holds no other value. -/
def skipAtom : List Char → Outcome Unit
  | 'n' :: rest => keyword ['u', 'l', 'l'] rest
  | 't' :: rest => keyword ['r', 'u', 'e'] rest
  | 'f' :: rest => keyword ['a', 'l', 's', 'e'] rest
  | '"' :: rest => skipString.read rest
  | '-' :: rest => skipNumeral rest
  | cs =>
    if cs.head?.any Char.isDigit then skipNumeral cs
    else .error (.next .expectedValue cs)

/-- A value up to its end, or up to its opening bracket. -/
def skipStart (outer : List Bracket) (cs : List Char) : Outcome (Turn Pending Unit) :=
  match skipBlanks cs with
  | [] => .error (.next (.unexpectedEnd .value) [])
  | '[' :: rest => .ok (.more (.opened .list outer), rest)
  | '{' :: rest => .ok (.more (.opened .object outer), rest)
  | rest => (skipAtom rest).andThen fun _ rest => .ok (Pending.completed outer, rest)

def colon (cs : List Char) : Outcome Unit :=
  match skipBlanks cs with
  | [] => .error (.next (.unexpectedEnd .object) [])
  | ':' :: rest => .ok ((), rest)
  | rest => .error (.next .expectedColon rest)

def skipKey (cs : List Char) : Outcome Unit :=
  match skipBlanks cs with
  | [] => .error (.next (.unexpectedEnd .object) [])
  | '"' :: rest => (skipString.read rest).andThen fun _ rest => colon rest
  | rest => .error (.next .keyNotString rest)

def skipItem (inner : Bracket) (outer : List Bracket) (cs : List Char) :
    Outcome (Turn Pending Unit) :=
  match inner with
  | .list => skipStart (.list :: outer) cs
  | .object => (skipKey cs).andThen fun _ rest => skipStart (.object :: outer) rest

def skipStep (pending : Pending) (cs : List Char) : Outcome (Turn Pending Unit) :=
  match pending with
  | .value outer => skipStart outer cs
  | .opened inner outer =>
    match skipBlanks cs with
    | [] => .error (.next (.unexpectedEnd inner.unfinished) [])
    | c :: rest =>
      if c = inner.closing then .ok (Pending.completed outer, rest)
      else skipItem inner outer (c :: rest)
  | .after inner outer =>
    match skipBlanks cs with
    | [] => .error (.next (.unexpectedEnd inner.unfinished) [])
    | c :: rest =>
      if c = inner.closing then .ok (Pending.completed outer, rest)
      else if c = ',' then skipItem inner outer rest
      else .error (.next inner.expectedComma (c :: rest))

theorem colon_shrinks : Shrinks colon := by
  intro cs _ rest h
  simp only [colon] at h
  split at h
  · simp at h
  · next rest' heq =>
    cases h
    exact length_lt_of_skipBlanks heq
  · simp at h

theorem skipNumeral_shrinks : Shrinks skipNumeral :=
  (Numeral.read_shrinks _).andThen fun _ => neverGrows_ok ()

theorem skipAtom_shrinks : Shrinks skipAtom := by
  intro cs _ rest h
  simp only [skipAtom] at h
  split at h
  · exact Nat.lt_succ_of_le (word_neverGrows _ _ _ h)
  · exact Nat.lt_succ_of_le (word_neverGrows _ _ _ h)
  · exact Nat.lt_succ_of_le (word_neverGrows _ _ _ h)
  · exact Nat.lt_succ_of_lt (skipString.shrinks h)
  · exact Nat.lt_succ_of_lt (skipNumeral_shrinks h)
  · split at h
    · exact skipNumeral_shrinks h
    · simp at h

theorem skipStart_shrinks (outer : List Bracket) : Shrinks (skipStart outer) := by
  intro cs turn rest h
  simp only [skipStart] at h
  split at h
  · simp at h
  · next rest' heq =>
    cases h
    exact length_lt_of_skipBlanks heq
  · next rest' heq =>
    cases h
    exact length_lt_of_skipBlanks heq
  · obtain ⟨_, middle, hread, h⟩ := Outcome.andThen_eq_ok.mp h
    cases h
    exact Nat.lt_of_lt_of_le (skipAtom_shrinks hread) (length_skipBlanks_le cs)

theorem skipKey_shrinks : Shrinks skipKey := by
  intro cs _ rest h
  simp only [skipKey] at h
  split at h
  · simp at h
  · next rest' heq =>
    obtain ⟨_, middle, hread, h⟩ := Outcome.andThen_eq_ok.mp h
    have hstring := skipString.shrinks hread
    have hcolon := colon_shrinks h
    have hstart := length_lt_of_skipBlanks heq
    omega
  · simp at h

theorem skipItem_shrinks (inner : Bracket) (outer : List Bracket) :
    Shrinks (skipItem inner outer) := by
  cases inner with
  | list => exact skipStart_shrinks _
  | object => exact skipKey_shrinks.andThen fun _ => (skipStart_shrinks _).neverGrows

theorem skipStep_shrinks (pending : Pending) : Shrinks (skipStep pending) := by
  intro cs turn rest h
  cases pending with
  | value outer => exact skipStart_shrinks outer h
  | opened inner outer =>
    simp only [skipStep] at h
    split at h
    · simp at h
    · next c rest' heq =>
      split at h
      · cases h
        exact length_lt_of_skipBlanks heq
      · rw [← heq] at h
        exact Nat.lt_of_lt_of_le (skipItem_shrinks inner outer h) (length_skipBlanks_le cs)
  | after inner outer =>
    simp only [skipStep] at h
    split at h
    · simp at h
    · next c rest' heq =>
      split at h
      · cases h
        exact length_lt_of_skipBlanks heq
      · split at h
        · exact Nat.lt_trans (skipItem_shrinks inner outer h) (length_lt_of_skipBlanks heq)
        · simp at h

def skipValue : Reader Unit :=
  .loop (fun pending => ⟨skipStep pending, skipStep_shrinks pending⟩) (.value [])

end CaskOrder.Json
