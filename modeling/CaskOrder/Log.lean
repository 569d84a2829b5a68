/-!
# What is logged

Building a schema and deriving block names leave a trace: what was built, and every
name that was derived more than once.
-/

namespace CaskOrder

inductive Level where
  | debug
  | warn
deriving DecidableEq, Repr

inductive Event where
  | schemaBuilt (groups stanzas : Nat)
  | repeatedName (name : String)
  | namesDerived (targets : Nat)
deriving DecidableEq, Repr

namespace Event

def level : Event → Level
  | schemaBuilt _ _ => .debug
  | repeatedName _ => .warn
  | namesDerived _ => .debug

def message : Event → String
  | schemaBuilt _ _ => "built stanza schema"
  | repeatedName _ => "duplicate on_system dispatch name"
  | namesDerived _ => "synthesized on_system dispatch names"

end Event

/-- A value and the events that were logged on the way to it, in order. -/
structure Logged (α : Type) where
  value : α
  events : List Event

namespace Logged

/-- A value on the way to which nothing is logged. -/
def silent (value : α) : Logged α :=
  ⟨value, []⟩

def map (f : α → β) (logged : Logged α) : Logged β :=
  ⟨f logged.value, logged.events⟩

/-- Puts the error in other words, if there is one, and leaves what was logged as it is. -/
def mapError (f : ε → δ) (attempt : Logged (Except ε α)) : Logged (Except δ α) :=
  attempt.map (Except.mapError f)

/-- Goes on from an outcome that was reached silently, unless it is an error. -/
def attempt (outcome : Except ε α) (next : α → Logged (Except ε β)) : Logged (Except ε β) :=
  match outcome with
  | .ok a => next a
  | .error error => silent (.error error)

@[simp] theorem value_silent (value : α) : (silent value).value = value := rfl

@[simp] theorem events_silent (value : α) : (silent value).events = [] := rfl

@[simp] theorem value_map (f : α → β) (logged : Logged α) :
    (logged.map f).value = f logged.value := rfl

@[simp] theorem events_map (f : α → β) (logged : Logged α) :
    (logged.map f).events = logged.events := rfl

@[simp] theorem events_mapError (f : ε → δ) (made : Logged (Except ε α)) :
    (made.mapError f).events = made.events := rfl

@[simp] theorem attempt_ok (a : α) (next : α → Logged (Except ε β)) :
    attempt (.ok a) next = next a := rfl

@[simp] theorem attempt_error (error : ε) (next : α → Logged (Except ε β)) :
    attempt (.error error) next = silent (.error error) := rfl

theorem value_mapError_eq_ok_iff {f : ε → δ} {made : Logged (Except ε α)} {a : α} :
    (made.mapError f).value = .ok a ↔ made.value = .ok a := by
  rw [mapError, value_map]
  cases made.value with
  | ok found =>
    constructor
    · intro h
      rw [Except.ok.inj h]
    · intro h
      rw [Except.ok.inj h]
      rfl
  | error error => exact ⟨nofun, nofun⟩

theorem value_mapError_eq_error_iff {f : ε → δ} {made : Logged (Except ε α)} {error : δ} :
    (made.mapError f).value = .error error ↔
      ∃ cause, made.value = .error cause ∧ f cause = error := by
  rw [mapError, value_map]
  cases made.value with
  | ok a => exact ⟨nofun, nofun⟩
  | error cause =>
    constructor
    · intro h
      exact ⟨cause, rfl, Except.error.inj h⟩
    · intro h
      obtain ⟨found, hfound, hmessage⟩ := h
      rw [Except.error.inj hfound, ← hmessage]
      rfl

/-! ## Attempts that fail silently -/

/-- Nothing is logged on the way to an error. -/
def FailsSilently (made : Logged (Except ε α)) : Prop :=
  ∀ error, made.value = .error error → made.events = []

theorem failsSilently_silent (outcome : Except ε α) : FailsSilently (silent outcome) :=
  fun _ _ => events_silent outcome

theorem failsSilently_map_ok (made : Logged α) :
    FailsSilently (made.map (.ok : α → Except ε α)) := by
  intro error herror
  cases herror

theorem FailsSilently.map {made : Logged (Except ε α)} (h : made.FailsSilently) (f : α → β) :
    FailsSilently (made.map (Except.map f)) := by
  intro error herror
  cases hmade : made.value with
  | ok a =>
    rw [value_map, hmade] at herror
    cases herror
  | error cause =>
    rw [events_map]
    exact h cause hmade

theorem FailsSilently.mapError {made : Logged (Except ε α)} (h : made.FailsSilently)
    (f : ε → δ) : FailsSilently (made.mapError f) := by
  intro error herror
  obtain ⟨cause, hcause, -⟩ := value_mapError_eq_error_iff.mp herror
  rw [events_mapError]
  exact h cause hcause

theorem failsSilently_attempt {outcome : Except ε α} {next : α → Logged (Except ε β)}
    (hnext : ∀ a, outcome = .ok a → (next a).FailsSilently) :
    FailsSilently (attempt outcome next) := by
  cases outcome with
  | ok a =>
    rw [attempt_ok]
    exact hnext a rfl
  | error error =>
    rw [attempt_error]
    exact failsSilently_silent _

end Logged
end CaskOrder
