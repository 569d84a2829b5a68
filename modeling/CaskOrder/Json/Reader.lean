import CaskOrder.Json.Fault

/-!
# Readers

A reader takes a value off the front of a text and returns it with the rest.  The rest
is always shorter than the text, which is what lets a loop of readers be defined by
recursion on the length of the text.

Blanks are the space, the line feed, the tab and the carriage return.
-/

namespace CaskOrder.Json

/-- What comes of reading from the front of a text: a value and the rest, or a fault. -/
abbrev Outcome (α : Type) := Except Fault (α × List Char)

namespace Outcome

/-- Goes on with what was read and the rest. -/
def andThen (outcome : Outcome α) (next : α → List Char → Outcome β) : Outcome β :=
  match outcome with
  | .error fault => .error fault
  | .ok (a, rest) => next a rest

@[simp] theorem andThen_ok (a : α) (rest : List Char) (next : α → List Char → Outcome β) :
    andThen (.ok (a, rest)) next = next a rest :=
  rfl

@[simp] theorem andThen_error (fault : Fault) (next : α → List Char → Outcome β) :
    andThen (.error fault) next = .error fault :=
  rfl

theorem andThen_eq_ok {outcome : Outcome α} {next : α → List Char → Outcome β}
    {found : β × List Char} :
    outcome.andThen next = .ok found ↔
      ∃ a rest, outcome = .ok (a, rest) ∧ next a rest = .ok found := by
  rcases outcome with fault | ⟨a, rest⟩
  · simp
  · exact ⟨fun h => ⟨a, rest, rfl, h⟩, fun ⟨_, _, heq, h⟩ => by cases heq; exact h⟩

end Outcome

/-- Whatever is read, the rest is shorter than the text. -/
def Shrinks (read : List Char → Outcome α) : Prop :=
  ∀ ⦃cs a rest⦄, read cs = .ok (a, rest) → rest.length < cs.length

/-- Whatever is read, the rest is no longer than the text. -/
def NeverGrows (read : List Char → Outcome α) : Prop :=
  ∀ ⦃cs a rest⦄, read cs = .ok (a, rest) → rest.length ≤ cs.length

structure Reader (α : Type) where
  read : List Char → Outcome α
  shrinks : Shrinks read

theorem neverGrows_ok (a : α) : NeverGrows fun cs => .ok (a, cs) := by
  intro cs b rest h
  cases h
  exact Nat.le_refl _

theorem neverGrows_map (found : List Char → Except Fault α) (f : α → β) :
    NeverGrows fun cs => (found cs).map fun a => (f a, cs) := by
  intro cs b rest h
  simp only at h
  cases hfound : found cs with
  | error fault =>
    rw [hfound] at h
    cases h
  | ok a =>
    rw [hfound] at h
    cases h
    exact Nat.le_refl _

theorem Shrinks.neverGrows {read : List Char → Outcome α} (h : Shrinks read) :
    NeverGrows read :=
  fun _ _ _ hread => Nat.le_of_lt (h hread)

theorem Shrinks.andThen {read : List Char → Outcome α} {next : α → List Char → Outcome β}
    (hread : Shrinks read) (hnext : ∀ a, NeverGrows (next a)) :
    Shrinks fun cs => (read cs).andThen next := by
  intro cs b rest h
  obtain ⟨a, middle, hfirst, hsecond⟩ := Outcome.andThen_eq_ok.mp h
  exact Nat.lt_of_le_of_lt (hnext a hsecond) (hread hfirst)

theorem NeverGrows.andThen {read : List Char → Outcome α}
    {next : α → List Char → Outcome β}
    (hread : NeverGrows read) (hnext : ∀ a, NeverGrows (next a)) :
    NeverGrows fun cs => (read cs).andThen next := by
  intro cs b rest h
  obtain ⟨a, middle, hfirst, hsecond⟩ := Outcome.andThen_eq_ok.mp h
  exact Nat.le_trans (hnext a hsecond) (hread hfirst)

/-- One round of a loop either leads to another round or ends the loop. -/
inductive Turn (σ α : Type) where
  | more (state : σ)
  | done (value : α)
deriving DecidableEq, Repr

namespace Reader

/-- Reads round after round until one ends the loop. -/
def rounds (round : σ → Reader (Turn σ α)) (state : σ) (cs : List Char) : Outcome α :=
  match h : (round state).read cs with
  | .error fault => .error fault
  | .ok (.done a, rest) => .ok (a, rest)
  | .ok (.more state', rest) =>
    have : rest.length < cs.length := (round state).shrinks h
    rounds round state' rest
termination_by cs.length

theorem rounds_eq (round : σ → Reader (Turn σ α)) (state : σ) (cs : List Char) :
    rounds round state cs =
      ((round state).read cs).andThen fun turn rest =>
        match turn with
        | .done a => .ok (a, rest)
        | .more state' => rounds round state' rest := by
  rw [rounds]
  split <;> simp_all

theorem rounds_done {round : σ → Reader (Turn σ α)} {state : σ} {cs rest : List Char} {a : α}
    (h : (round state).read cs = .ok (.done a, rest)) :
    rounds round state cs = .ok (a, rest) := by
  rw [rounds_eq, h, Outcome.andThen_ok]

theorem rounds_more {round : σ → Reader (Turn σ α)} {state state' : σ} {cs rest : List Char}
    (h : (round state).read cs = .ok (.more state', rest)) :
    rounds round state cs = rounds round state' rest := by
  rw [rounds_eq, h, Outcome.andThen_ok]

/-- What holds where the last round begins, and is carried back over every other round,
holds where the loop begins. -/
theorem rounds_induction {round : σ → Reader (Turn σ α)} {a : α} {rest : List Char}
    {motive : σ → List Char → Prop}
    (hdone : ∀ state cs, (round state).read cs = .ok (.done a, rest) → motive state cs)
    (hmore : ∀ state cs state' mid, (round state).read cs = .ok (.more state', mid) →
      motive state' mid → motive state cs)
    {state : σ} {cs : List Char} (h : rounds round state cs = .ok (a, rest)) :
    motive state cs := by
  fun_induction rounds round state cs with
  | case1 => simp at h
  | case2 state cs b rest' hread =>
    cases h
    exact hdone state cs hread
  | case3 state cs state' mid hread _ ih => exact hmore state cs state' mid hread (ih h)

theorem rounds_shrinks (round : σ → Reader (Turn σ α)) (state : σ) :
    Shrinks (rounds round state) := by
  intro cs a rest h
  fun_induction rounds round state cs with
  | case1 => simp at h
  | case2 state cs b rest' hread =>
    cases h
    exact (round state).shrinks hread
  | case3 state cs state' rest' hread _ ih =>
    exact Nat.lt_trans (ih h) ((round state).shrinks hread)

def loop (round : σ → Reader (Turn σ α)) (state : σ) : Reader α :=
  ⟨rounds round state, rounds_shrinks round state⟩

def map (f : α → β) (reader : Reader α) : Reader β where
  read cs := (reader.read cs).andThen fun a rest => .ok (f a, rest)
  shrinks := reader.shrinks.andThen fun a => neverGrows_ok (f a)

end Reader

def isBlank (c : Char) : Bool :=
  c = ' ' || c = '\n' || c = '\t' || c = '\r'

def skipBlanks (cs : List Char) : List Char :=
  cs.dropWhile isBlank

theorem length_skipBlanks_le (cs : List Char) : (skipBlanks cs).length ≤ cs.length :=
  (List.dropWhile_suffix isBlank).length_le

theorem length_lt_of_skipBlanks {c : Char} {cs rest : List Char}
    (h : skipBlanks cs = c :: rest) : rest.length < cs.length := by
  have hle := length_skipBlanks_le cs
  rw [h] at hle
  exact hle

/-- The given characters, one after the other. -/
def word (atEnd otherwise : Cause) : List Char → List Char → Outcome Unit
  | [], cs => .ok ((), cs)
  | _ :: _, [] => .error (.here atEnd [])
  | w :: ws, c :: cs =>
    if c = w then word atEnd otherwise ws cs else .error (.next otherwise (c :: cs))

theorem word_eq_ok {atEnd otherwise : Cause} {ws cs rest : List Char} :
    word atEnd otherwise ws cs = .ok ((), rest) ↔ cs = ws ++ rest := by
  fun_induction word atEnd otherwise ws cs with
  | case1 => simp [eq_comm]
  | case2 => simp
  | case3 => simp_all
  | case4 w ws c cs hne => simp [hne]

theorem word_neverGrows (atEnd otherwise : Cause) (ws : List Char) :
    NeverGrows (word atEnd otherwise ws) := by
  intro cs _ rest h
  simp [word_eq_ok.mp h]

end CaskOrder.Json
