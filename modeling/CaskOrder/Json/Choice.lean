import CaskOrder.Json.Skip

/-!
# Values chosen by name

A value that is one of several is written as a string that holds its name, or as an
object with a single member whose key is the name and whose value is `null`.
-/

namespace CaskOrder.Json

def named (choices : List (String × α)) (name : String) (rest : List Char) : Outcome α :=
  match choices.lookup name with
  | some a => .ok (a, rest)
  | none => .error (.here (.unknownName name (choices.map Prod.fst)) rest)

def null (cs : List Char) : Outcome Unit :=
  match skipBlanks cs with
  | [] => .error (.next (.unexpectedEnd .value) [])
  | 'n' :: rest => keyword ['u', 'l', 'l'] rest
  | rest => .error (mismatch .null rest)

def lastMember (cs : List Char) : Outcome Unit :=
  match skipBlanks cs with
  | [] => .error (.here (.unexpectedEnd .object) [])
  | '}' :: rest => .ok ((), rest)
  | rest => .error (.here .expectedValue rest)

def namedMember (choices : List (String × α)) (cs : List Char) : Outcome α :=
  match skipBlanks cs with
  | [] => .error (.next (.unexpectedEnd .object) [])
  | '"' :: rest =>
    (stringBody.read rest).andThen fun name rest =>
      (named choices name rest).andThen fun a rest =>
        (colon rest).andThen fun _ rest =>
          (null rest).andThen fun _ rest =>
            (lastMember rest).andThen fun _ rest => .ok (a, rest)
  | '}' :: rest => .error (.next .expectedValue ('}' :: rest))
  | rest => .error (.next .keyNotString rest)

def readChoice (choices : List (String × α)) (cs : List Char) : Outcome α :=
  match skipBlanks cs with
  | [] => .error (.next (.unexpectedEnd .value) [])
  | '"' :: rest => (stringBody.read rest).andThen fun name rest => named choices name rest
  | '{' :: rest => namedMember choices rest
  | rest => .error (.next .expectedValue rest)

theorem named_neverGrows (choices : List (String × α)) (name : String) :
    NeverGrows (named choices name) := by
  intro cs a rest h
  simp only [named] at h
  split at h
  · exact neverGrows_ok _ h
  · simp at h

theorem null_shrinks : Shrinks null := by
  intro cs _ rest h
  simp only [null] at h
  split at h
  · simp at h
  · next rest' heq =>
    exact Nat.lt_of_le_of_lt (word_neverGrows _ _ _ h) (length_lt_of_skipBlanks heq)
  · simp at h

theorem lastMember_shrinks : Shrinks lastMember := by
  intro cs _ rest h
  simp only [lastMember] at h
  split at h
  · simp at h
  · next rest' heq =>
    cases h
    exact length_lt_of_skipBlanks heq
  · simp at h

theorem namedMember_shrinks (choices : List (String × α)) : Shrinks (namedMember choices) := by
  intro cs a rest h
  simp only [namedMember] at h
  split at h
  · simp at h
  · next rest' heq =>
    refine Nat.lt_trans ?_ (length_lt_of_skipBlanks heq)
    refine stringBody.shrinks.andThen (fun name => ?_) h
    refine (named_neverGrows choices name).andThen fun a => ?_
    refine colon_shrinks.neverGrows.andThen fun _ => ?_
    refine null_shrinks.neverGrows.andThen fun _ => ?_
    exact lastMember_shrinks.neverGrows.andThen fun _ => neverGrows_ok a
  · simp at h
  · simp at h

theorem readChoice_shrinks (choices : List (String × α)) : Shrinks (readChoice choices) := by
  intro cs a rest h
  simp only [readChoice] at h
  split at h
  · simp at h
  · next rest' heq =>
    refine Nat.lt_trans ?_ (length_lt_of_skipBlanks heq)
    exact stringBody.shrinks.andThen (fun name => named_neverGrows choices name) h
  · next rest' heq =>
    exact Nat.lt_trans (namedMember_shrinks choices h) (length_lt_of_skipBlanks heq)
  · simp at h

/-- One of the given values, by its name. -/
def choice (choices : List (String × α)) : Reader α :=
  ⟨readChoice choices, readChoice_shrinks choices⟩

end CaskOrder.Json
