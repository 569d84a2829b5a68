import CaskOrder.Proofs.Config.Platform
import CaskOrder.Proofs.Schema.Joining
import CaskOrder.Session

/-!
# Runs of a session

A step that is refused leaves the session as it is, and nothing is logged for it.  So a run
leads to the same session, and to the same log, without its refused steps.

A step that keeps something changes what is found under its own name among the things of its
kind, and nothing else.  So what is found under a name after a run is what the last step that
was answered by keeping something there has put there.  In particular, a schema can be
reloaded in its own place, and nothing changes.
-/

namespace CaskOrder

/-- The kind of the things that are made from a source. -/
def Source.kind : Source → Kind
  | schema _ => .schema
  | set _ => .set
  | group _ => .group

theorem exists_ok_of_map_eq_ok {outcome : Except ε α} {f : α → β} {b : β}
    (h : outcome.map f = .ok b) : ∃ a, outcome = .ok a ∧ f a = b := by
  cases outcome with
  | ok a => exact ⟨a, rfl, Except.ok.inj h⟩
  | error error => cases h

namespace Step

/-- The step asks to keep something of the kind under the name. -/
def keepsAt (kind : Kind) (name : String) : Step → Bool
  | keep under source => source.kind = kind && under = name
  | _ => false

/-- What the answer to a step says that is now kept under the name. -/
def kept? (kind : Kind) (name : String) (step : Step) : Except Refusal Answer → Option Kept
  | .ok (.kept kept) => if step.keepsAt kind name then some kept else none
  | _ => none

theorem kept?_eq_none {kind : Kind} {name : String} {step : Step}
    (helsewhere : step.keepsAt kind name = false) (answer : Except Refusal Answer) :
    step.kept? kind name answer = none := by
  cases answer with
  | ok answer =>
      cases answer with
      | kept kept => rw [kept?, helsewhere, if_neg Bool.false_ne_true]
      | same same => rfl
  | error refusal => rfl

end Step

namespace Session

variable {session : Session} {step : Step} {steps : List Step}

/-! ## What is made -/

theorem makeSchema_failsSilently (session : Session) (source : SchemaSource) :
    (session.makeSchema source).FailsSilently := by
  cases source with
  | table table => exact (Schema.build_failsSilently table).mapError _
  | json text => exact (Schema.ofJson_failsSilently text).mapError _
  | builtin => exact Logged.failsSilently_silent _
  | copied name => exact Logged.failsSilently_silent _
  | joined names =>
      exact Logged.failsSilently_attempt fun schemas _ =>
        (Schema.join_failsSilently schemas).mapError _
  | reloaded name =>
      exact Logged.failsSilently_attempt fun schema _ =>
        (Schema.ofJson_failsSilently schema.toValue.text).mapError _
  | groups names =>
      exact Logged.failsSilently_attempt fun groups _ =>
        (Schema.build_failsSilently groups).mapError _

theorem makeSet_failsSilently (session : Session) (source : SetSource) :
    (session.makeSet source).FailsSilently := by
  cases source with
  | targets targets => exact Logged.failsSilently_map_ok _
  | releases symbols => exact Logged.failsSilently_map_ok _
  | json text => exact (BlockNames.ofJson_failsSilently text).mapError _
  | builtin => exact Logged.failsSilently_silent _
  | joined names =>
      exact Logged.failsSilently_attempt fun sets _ => Logged.failsSilently_map_ok _
  | releasesNamedIn name =>
      exact Logged.failsSilently_attempt fun set _ => Logged.failsSilently_map_ok _

theorem make_failsSilently (session : Session) (source : Source) :
    (session.make source).FailsSilently := by
  cases source with
  | schema source => exact (session.makeSchema_failsSilently source).map Kept.schema
  | set source => exact (session.makeSet_failsSilently source).map Kept.set
  | group source => exact Logged.failsSilently_silent _

theorem kind_of_make {source : Source} {kept : Kept}
    (hmake : (session.make source).value = .ok kept) : kept.kind = source.kind := by
  cases source with
  | schema source =>
      obtain ⟨schema, -, hkept⟩ := exists_ok_of_map_eq_ok hmake
      rw [← hkept]
      rfl
  | set source =>
      obtain ⟨set, -, hkept⟩ := exists_ok_of_map_eq_ok hmake
      rw [← hkept]
      rfl
  | group source =>
      obtain ⟨group, -, hkept⟩ := exists_ok_of_map_eq_ok hmake
      rw [← hkept]
      rfl

/-! ## One step -/

theorem step_keep_of_ok {name : String} {source : Source} {kept : Kept}
    (hmake : (session.make source).value = .ok kept) :
    session.step (.keep name source) =
      (session.put name kept, ⟨.ok (.kept kept), (session.make source).events⟩) := by
  simp only [Session.step, hmake]

theorem step_keep_of_error {name : String} {source : Source} {refusal : Refusal}
    (hmake : (session.make source).value = .error refusal) :
    session.step (.keep name source) = (session, .silent (.error refusal)) := by
  simp only [Session.step, hmake, session.make_failsSilently source refusal hmake]
  rfl

/-- A step that is refused leaves the session as it is, and nothing is logged for it. -/
theorem step_of_refusal {refusal : Refusal}
    (hrefused : (session.step step).2.value = .error refusal) :
    session.step step = (session, .silent (.error refusal)) := by
  cases step with
  | keep name source =>
      cases hmake : (session.make source).value with
      | ok kept =>
          rw [step_keep_of_ok hmake] at hrefused
          cases hrefused
      | error cause =>
          rw [step_keep_of_error hmake] at hrefused ⊢
          rw [← hrefused]
          rfl
  | look kind name =>
      change (session.find kind name).map Answer.kept = .error refusal at hrefused
      rw [Session.step, hrefused]
  | compare kind name other =>
      change (session.compare kind name other).map Answer.same = .error refusal at hrefused
      rw [Session.step, hrefused]

theorem find_put (session : Session) (name : String) (kept : Kept) (kind : Kind)
    (other : String) :
    (session.put name kept).find kind other =
      if kept.kind = kind ∧ name = other then .ok kept else session.find kind other := by
  by_cases hname : name = other
  · cases kept <;> cases kind <;>
      simp [put, find, schema, set, group, lookUp, Kept.kind, hname, Except.map]
  · cases kept <;> cases kind <;>
      simp [put, find, schema, set, group, lookUp, Kept.kind, hname, Std.TreeMap.getElem?_insert]

/-- What is found after a step is what the step has put there, or else what was found before. -/
theorem find_step (session : Session) (step : Step) (kind : Kind) (name : String) :
    (session.step step).1.find kind name =
      (step.kept? kind name (session.step step).2.value).elim (session.find kind name) .ok := by
  cases step with
  | keep under source =>
      cases hmake : (session.make source).value with
      | ok kept =>
          rw [step_keep_of_ok hmake, find_put, kind_of_make hmake]
          by_cases hplace : source.kind = kind ∧ under = name
          · simp [Step.kept?, Step.keepsAt, hplace]
          · simp [Step.kept?, Step.keepsAt, hplace]
      | error refusal =>
          rw [step_keep_of_error hmake]
          rfl
  | look wanted under =>
      rw [Step.kept?_eq_none rfl]
      rfl
  | compare wanted under other =>
      rw [Step.kept?_eq_none rfl]
      rfl

/-! ## Runs -/

/-- The events of some answers, one after the other. -/
def log (answers : List (Logged (Except Refusal Answer))) : List Event :=
  answers.flatMap Logged.events

theorem log_cons (answer : Logged (Except Refusal Answer))
    (answers : List (Logged (Except Refusal Answer))) :
    log (answer :: answers) = answer.events ++ log answers := rfl

/-- The steps of a run that are not refused. -/
def accepted (session : Session) : List Step → List Step
  | [] => []
  | step :: steps =>
    if (session.step step).2.value.isOk then step :: (session.step step).1.accepted steps
    else (session.step step).1.accepted steps

theorem run_cons (session : Session) (step : Step) (steps : List Step) :
    session.run (step :: steps) =
      (((session.step step).1.run steps).1,
        (session.step step).2 :: ((session.step step).1.run steps).2) := rfl

theorem accepted_cons_of_ok {answer : Answer} (hok : (session.step step).2.value = .ok answer) :
    session.accepted (step :: steps) = step :: (session.step step).1.accepted steps := by
  rw [accepted, hok]
  rfl

theorem accepted_cons_of_error {refusal : Refusal}
    (hrefused : (session.step step).2.value = .error refusal) :
    session.accepted (step :: steps) = session.accepted steps := by
  rw [accepted, step_of_refusal hrefused]
  rfl

/-- A run without its refused steps leads to the same session, and to the same answers to the
other steps. -/
theorem run_accepted (session : Session) (steps : List Step) :
    session.run (session.accepted steps) =
      ((session.run steps).1, (session.run steps).2.filter fun answer => answer.value.isOk) := by
  induction steps generalizing session with
  | nil => rfl
  | cons step steps ih =>
      cases hanswer : (session.step step).2.value with
      | ok answer =>
          rw [accepted_cons_of_ok hanswer, run_cons, run_cons, ih,
            List.filter_cons_of_pos (by rw [hanswer]; rfl)]
      | error refusal =>
          -- The rest of the run starts from the same session, with and without the step.
          rw [accepted_cons_of_error hanswer, ih, run_cons,
            List.filter_cons_of_neg (by rw [hanswer]; exact Bool.false_ne_true),
            step_of_refusal hanswer]

/-- Nothing is logged for the refused steps of a run. -/
theorem log_run_accepted (session : Session) (steps : List Step) :
    log (session.run (session.accepted steps)).2 = log (session.run steps).2 := by
  induction steps generalizing session with
  | nil => rfl
  | cons step steps ih =>
      cases hanswer : (session.step step).2.value with
      | ok answer =>
          rw [accepted_cons_of_ok hanswer, run_cons, run_cons, log_cons, log_cons, ih]
      | error refusal =>
          rw [accepted_cons_of_error hanswer, ih, run_cons, log_cons, step_of_refusal hanswer,
            Logged.events_silent, List.nil_append]

/-! ## What is found after a run -/

/-- What the answers to some steps say that was kept under the name, one after the other. -/
def keptBy (kind : Kind) (name : String) (steps : List Step)
    (answers : List (Logged (Except Refusal Answer))) : List Kept :=
  (steps.zip answers).flatMap fun pair => (pair.1.kept? kind name pair.2.value).toList

/-- What is found after a run is what was kept there last in it, or else what was found before. -/
theorem find_run (session : Session) (steps : List Step) (kind : Kind) (name : String) :
    (session.run steps).1.find kind name =
      (keptBy kind name steps (session.run steps).2).getLast?.elim (session.find kind name)
        .ok := by
  induction steps generalizing session with
  | nil => rfl
  | cons step steps ih =>
      have hkept : keptBy kind name (step :: steps) (session.run (step :: steps)).2 =
          (step.kept? kind name (session.step step).2.value).toList ++
            keptBy kind name steps ((session.step step).1.run steps).2 := rfl
      -- What the rest of the run keeps there last comes before what this step keeps there.
      rw [hkept, List.getLast?_append, run_cons, ih, find_step]
      cases (keptBy kind name steps ((session.step step).1.run steps).2).getLast? with
      | some last => rfl
      | none => cases step.kept? kind name (session.step step).2.value <;> rfl

/-- Steps that keep nothing under a name do not change what is found there. -/
theorem find_run_of_elsewhere {kind : Kind} {name : String}
    (helsewhere : ∀ step ∈ steps, step.keepsAt kind name = false) :
    (session.run steps).1.find kind name = session.find kind name := by
  have hnothing : keptBy kind name steps (session.run steps).2 = [] := by
    rw [keptBy, List.flatMap_eq_nil_iff]
    intro pair hpair
    rw [Step.kept?_eq_none (helsewhere pair.1 (List.of_mem_zip hpair).1)]
    rfl
  rw [find_run, hnothing]
  rfl

/-! ## Reloading -/

theorem find_schema {name : String} {schema : Schema}
    (hschema : session.schema name = .ok schema) :
    session.find .schema name = .ok (.schema schema) := by
  rw [find, hschema]
  rfl

theorem make_reloaded {name : String} {schema : Schema}
    (hschema : session.schema name = .ok schema) :
    (session.make (.schema (.reloaded name))).value = .ok (.schema schema) := by
  have hload : (session.makeSchema (.reloaded name)).value = .ok schema := by
    rw [makeSchema, hschema, Logged.attempt_ok, Logged.value_mapError_eq_ok_iff]
    exact schema.ofJson_export
  rw [make, Logged.value_map, hload]
  rfl

/-- To keep the reload of a schema in its own place changes nothing that is found. -/
theorem find_step_reloaded {name : String} {schema : Schema}
    (hschema : session.schema name = .ok schema) (kind : Kind) (other : String) :
    (session.step (.keep name (.schema (.reloaded name)))).1.find kind other =
      session.find kind other := by
  rw [step_keep_of_ok (make_reloaded hschema), find_put]
  split
  · next hplace =>
    rw [← hplace.1, ← hplace.2]
    exact (find_schema hschema).symm
  · rfl

/-- The reload of a schema is never refused, and it is the same as the schema. -/
theorem run_reload_and_compare {name : String} {schema : Schema}
    (hschema : session.schema name = .ok schema) (other : String) :
    (session.run [.keep other (.schema (.reloaded name)), .compare .schema name other]).2.map
        Logged.value =
      [.ok (.kept (.schema schema)), .ok (.same true)] := by
  have hname : (session.put other (.schema schema)).find .schema name = .ok (.schema schema) := by
    rw [find_put, find_schema hschema, ite_self]
  have hother : (session.put other (.schema schema)).find .schema other =
      .ok (.schema schema) := by
    rw [find_put, if_pos ⟨rfl, rfl⟩]
  have hsame : (Kept.schema schema == Kept.schema schema) = true := Schema.beq_iff_eq.mpr rfl
  have hcompare : (session.put other (.schema schema)).compare .schema name other =
      .ok true := by
    rw [compare, hname, hother, ← hsame]
    rfl
  rw [run_cons, step_keep_of_ok (make_reloaded hschema), run_cons, Session.step, hcompare]
  rfl

end Session
end CaskOrder
