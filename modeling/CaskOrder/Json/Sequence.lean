import CaskOrder.Json.Mismatch

/-!
# Lists

Before every item of a list it is found out whether there is one.  The first item may
be missing; each later one follows a comma, and a comma has to be followed by an item.
The bracket behind the last item is taken off with it.
-/

namespace CaskOrder.Json

def firstItem (cs : List Char) : Outcome Bool :=
  match skipBlanks cs with
  | [] => .error (.next (.unexpectedEnd .list) [])
  | ']' :: rest => .ok (false, rest)
  | rest => .ok (true, rest)

def nextItem (cs : List Char) : Outcome Bool :=
  match skipBlanks cs with
  | [] => .error (.next (.unexpectedEnd .list) [])
  | ']' :: rest => .ok (false, rest)
  | ',' :: rest =>
    match skipBlanks rest with
    | [] => .error (.next (.unexpectedEnd .value) [])
    | ']' :: rest => .error (.next .trailingComma (']' :: rest))
    | rest => .ok (true, rest)
  | rest => .error (.next .expectedListComma rest)

theorem firstItem_length {cs rest : List Char} {more : Bool}
    (h : firstItem cs = .ok (more, rest)) :
    rest.length ≤ cs.length ∧ (more = false → rest.length < cs.length) := by
  simp only [firstItem] at h
  split at h
  · simp at h
  · next rest' heq =>
    cases h
    have hlt := length_lt_of_skipBlanks heq
    exact ⟨Nat.le_of_lt hlt, fun _ => hlt⟩
  · cases h
    exact ⟨length_skipBlanks_le cs, by simp⟩

theorem nextItem_length {cs rest : List Char} {more : Bool}
    (h : nextItem cs = .ok (more, rest)) :
    rest.length ≤ cs.length ∧ (more = false → rest.length < cs.length) := by
  simp only [nextItem] at h
  split at h
  · simp at h
  · next rest' heq =>
    cases h
    have hlt := length_lt_of_skipBlanks heq
    exact ⟨Nat.le_of_lt hlt, fun _ => hlt⟩
  · next rest' heq =>
    have hlt := length_lt_of_skipBlanks heq
    split at h
    · simp at h
    · simp at h
    · cases h
      have hle := length_skipBlanks_le rest'
      exact ⟨by omega, by simp⟩
  · simp at h

def itemRound (item : Reader α) (taken : List α) : Reader (Turn (List α) (List α)) where
  read cs :=
    (if taken.isEmpty then firstItem cs else nextItem cs).andThen fun more rest =>
      if more then (item.read rest).andThen fun a rest => .ok (.more (a :: taken), rest)
      else .ok (.done taken.reverse, rest)
  shrinks := by
    intro cs turn rest h
    obtain ⟨more, middle, hitem, h⟩ := Outcome.andThen_eq_ok.mp h
    have hlength :
        middle.length ≤ cs.length ∧ (more = false → middle.length < cs.length) := by
      split at hitem
      · exact firstItem_length hitem
      · exact nextItem_length hitem
    cases more with
    | false =>
      cases h
      exact hlength.2 rfl
    | true =>
      obtain ⟨a, rest', hread, h⟩ := Outcome.andThen_eq_ok.mp h
      cases h
      exact Nat.lt_of_lt_of_le (item.shrinks hread) hlength.1

/-- A list of values that are all read in the same way. -/
def listOf (item : Reader α) : Reader (List α) where
  read cs :=
    (opening '[' .list cs).andThen fun _ rest => (Reader.loop (itemRound item) []).read rest
  shrinks := (opening_shrinks _ _).andThen fun _ => (Reader.loop _ _).shrinks.neverGrows

end CaskOrder.Json
