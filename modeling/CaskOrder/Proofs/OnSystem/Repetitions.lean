import CaskOrder.Proofs.Config.Platform
import CaskOrder.Proofs.OnSystem.Lookup
import Mathlib.Data.Finset.Card

/-!
# Warnings of repeated block names

Deriving block names logs a warning for every name that was derived before, and at the end what
was derived.  While the names are entered, the lookup holds exactly those that were passed, so
that a name is listed as repeated if and only if it stands at an earlier index as well.

The main statement gives the log of every derivation in these terms, and counts the warnings,
for all names together and for each of them.
-/

namespace CaskOrder

/-- The names at the indices at which they do not stand for the first time, in the order of
these indices. -/
def repetitions (names : List String) : List String :=
  (names.zipIdx.filter fun (name, index) => name ∈ names.take index).map Prod.fst

theorem repetitions_append_singleton (passed : List String) (last : String) :
    repetitions (passed ++ [last]) =
      repetitions passed ++ if last ∈ passed then [last] else [] := by
  have hpassed : (passed.zipIdx.filter fun (name, index) =>
        name ∈ (passed ++ [last]).take index) =
      passed.zipIdx.filter fun (name, index) => name ∈ passed.take index := by
    apply List.filter_congr
    rintro ⟨name, index⟩ hmem
    have hlt : index < passed.length := (List.getElem?_eq_some_iff.mp
      (List.mem_zipIdx_iff_getElem?.mp hmem)).1
    simp only [List.take_append_of_le_length hlt.le]
  have hlast : ([last].zipIdx passed.length).filter (fun (name, index) =>
        name ∈ (passed ++ [last]).take index) =
      if last ∈ passed then [(last, passed.length)] else [] := by
    simp [List.filter_cons]
  rw [repetitions, List.zipIdx_append, List.filter_append, hpassed, Nat.zero_add, hlast,
    List.map_append, repetitions]
  split <;> rfl

/-! ## The names that are listed as repeated -/

/-- Entering names behind those that were passed lists what they add to the repetitions. -/
theorem repetitions_append {lookup : Std.TreeMap String Nat} {passed : List String}
    (hfirst : HoldsFirst lookup passed) (names : List String) :
    repetitions (passed ++ names) =
      repetitions passed ++ (enterNames lookup passed.length names).2 := by
  induction names generalizing lookup passed with
  | nil => simp [enterNames]
  | cons name names ih =>
      have hsplit : passed ++ name :: names = (passed ++ [name]) ++ names := by simp
      have hlength : passed.length + 1 = (passed ++ [name]).length := by simp
      rw [enterNames, hsplit, hlength]
      by_cases hmem : name ∈ passed
      · rw [ih (hfirst.pass hmem), repetitions_append_singleton, if_pos hmem,
          if_pos ((hfirst.contains_iff name).mpr hmem), List.append_assoc, List.singleton_append]
      · rw [ih (hfirst.insert hmem), repetitions_append_singleton, if_neg hmem,
          if_neg (mt (hfirst.contains_iff name).mp hmem), List.append_nil]

theorem enterNames_eq_repetitions (names : List String) :
    (enterNames ∅ 0 names).2 = repetitions names :=
  (repetitions_append holdsFirst_nil names).symm

/-! ## Counting repetitions -/

/-- A name is repeated once less than it occurs. -/
theorem count_repetitions (names : List String) (name : String) :
    (repetitions names).count name = names.count name - 1 := by
  induction names using List.reverseRecOn with
  | nil => rfl
  | append_singleton passed last ih =>
      rw [repetitions_append_singleton, List.count_append, List.count_append, ih]
      by_cases hmem : last ∈ passed
      · by_cases heq : last = name
        · subst heq
          have hpos : 0 < passed.count last := List.count_pos_iff.mpr hmem
          rw [if_pos hmem, List.count_singleton_self]
          omega
        · simp [hmem, heq]
      · by_cases heq : last = name
        · subst heq
          have hzero : passed.count last = 0 := List.count_eq_zero.mpr hmem
          simp [hmem, hzero]
        · simp [hmem, heq]

/-- Every name is a repetition, except where it stands for the first time. -/
theorem length_repetitions_add_card (names : List String) :
    (repetitions names).length + names.toFinset.card = names.length := by
  induction names using List.reverseRecOn with
  | nil => rfl
  | append_singleton passed last ih =>
      have hset : (passed ++ [last]).toFinset = insert last passed.toFinset := by
        rw [List.toFinset_append, Finset.union_comm, List.toFinset_cons, List.toFinset_nil,
          Finset.insert_union, Finset.empty_union]
      rw [repetitions_append_singleton, hset, List.length_append, List.length_append]
      by_cases hmem : last ∈ passed
      · rw [Finset.card_insert_of_mem (List.mem_toFinset.mpr hmem), if_pos hmem,
          List.length_singleton]
        omega
      · rw [Finset.card_insert_of_notMem (mt List.mem_toFinset.mp hmem), if_neg hmem,
          List.length_singleton, List.length_nil]
        omega

theorem repetitions_eq_nil_iff (names : List String) :
    repetitions names = [] ↔ names.Nodup := by
  rw [List.nodup_iff_count_le_one, List.eq_nil_iff_forall_not_mem]
  apply forall_congr'
  intro name
  rw [← List.count_eq_zero, count_repetitions]
  omega

/-! ## What is logged -/

/-- The events of one level, in the order in which they were logged. -/
def Logged.atLevel (logged : Logged α) (level : Level) : List Event :=
  logged.events.filter fun event => event.level = level

namespace BlockNames

/-- The log has one warning for every repetition of a name, in the order of the names, followed
by one event that counts the targets. -/
structure WarnsOfRepetitions (derived : Logged BlockNames) : Prop where
  warn_eq : derived.atLevel .warn = (repetitions derived.value.names).map .repeatedName
  debug_eq : derived.atLevel .debug = [.namesDerived derived.value.targets.length]
  events_eq : derived.events = derived.atLevel .warn ++ derived.atLevel .debug
  length_eq : (derived.atLevel .warn).length + derived.value.names.dedup.length =
    derived.value.size
  count_eq : ∀ name,
    (derived.atLevel .warn).count (.repeatedName name) = derived.value.names.count name - 1
  none_iff : derived.atLevel .warn = [] ↔ derived.value.names.Nodup

theorem events_ofTargets (targets : List Target) :
    (ofTargets targets).events =
      (repetitions (ofTargets targets).value.names).map .repeatedName ++
        [.namesDerived targets.length] := by
  rw [← enterNames_eq_repetitions]
  rfl

theorem warnings_ofTargets (targets : List Target) :
    (ofTargets targets).atLevel .warn =
      (repetitions (ofTargets targets).value.names).map .repeatedName := by
  simp [Logged.atLevel, events_ofTargets, List.filter_map, Function.comp_def, Event.level]

theorem debug_ofTargets (targets : List Target) :
    (ofTargets targets).atLevel .debug = [.namesDerived targets.length] := by
  simp [Logged.atLevel, events_ofTargets, List.filter_map, Function.comp_def, Event.level]

theorem ofTargets_warnsOfRepetitions (targets : List Target) :
    WarnsOfRepetitions (ofTargets targets) where
  warn_eq := warnings_ofTargets targets
  debug_eq := debug_ofTargets targets
  events_eq := by
    rw [warnings_ofTargets, debug_ofTargets]
    exact events_ofTargets targets
  length_eq := by
    rw [warnings_ofTargets, List.length_map, ← List.card_toFinset]
    exact length_repetitions_add_card (ofTargets targets).value.names
  count_eq name := by
    have hinjective : Function.Injective Event.repeatedName := fun _ _ => Event.repeatedName.inj
    rw [warnings_ofTargets, List.count_map_of_injective _ _ hinjective, count_repetitions]
  none_iff := by
    rw [warnings_ofTargets, List.map_eq_nil_iff, repetitions_eq_nil_iff]

/-- However a set of block names is derived, the log names its repetitions and nothing else
before it counts the targets.  A platform that cannot be read leaves no trace. -/
theorem derivations_warn_of_repetitions :
    (∀ targets, (ofTargets targets).value.targets = targets ∧
        WarnsOfRepetitions (ofTargets targets)) ∧
      (∀ symbols, WarnsOfRepetitions (ofReleases symbols)) ∧
      (∀ json set, (ofJson json).value = .ok set →
        WarnsOfRepetitions ⟨set, (ofJson json).events⟩) ∧
      ∀ json error, (ofJson json).value = .error error → (ofJson json).events = [] := by
  refine ⟨fun targets => ⟨rfl, ofTargets_warnsOfRepetitions targets⟩,
    fun symbols => ofTargets_warnsOfRepetitions (Target.withReleases symbols), ?_,
    ofJson_failsSilently⟩
  intro json set hload
  rcases exists_parse_of_ofJson hload with ⟨symbols, -, hderived, hset⟩
  rw [hderived, hset, Logged.events_map]
  exact ofTargets_warnsOfRepetitions (Target.withReleases symbols)

/-- Two releases with the tag of an architecture are both warned of. -/
theorem releases_named_arm_warn :
    (ofReleases ["arm", "arm"]).atLevel .warn =
        [.repeatedName "on_arm", .repeatedName "on_arm"] ∧
      (∃ set, (ofJson "\x7b\"versions\":[\"arm\",\"arm\"]\x7d").value = .ok set ∧
        ((ofJson "\x7b\"versions\":[\"arm\",\"arm\"]\x7d").atLevel .warn).count
            (.repeatedName "on_arm") =
          set.names.count "on_arm" - 1) ∧
      ∃ error, (ofJson "[").value = .error error ∧ (ofJson "[").events = [] := by
  rcases derivations_warn_of_repetitions with ⟨-, hreleases, hloaded, hunread⟩
  have hread : (ofJson "\x7b\"versions\":[\"arm\",\"arm\"]\x7d").value.isOk = true := by
    decide +kernel
  have hrefused : (ofJson "[").value.isOk = false := by
    decide +kernel
  refine ⟨?_, ?_, ?_⟩
  · rw [(hreleases ["arm", "arm"]).warn_eq]
    decide +kernel
  · cases hload : (ofJson "\x7b\"versions\":[\"arm\",\"arm\"]\x7d").value with
    | error error =>
        rw [hload] at hread
        cases hread
    | ok set => exact ⟨set, rfl, (hloaded _ set hload).count_eq "on_arm"⟩
  · cases hload : (ofJson "[").value with
    | error error => exact ⟨error, rfl, hunread "[" error hload⟩
    | ok set =>
        rw [hload] at hrefused
        cases hrefused

end BlockNames
end CaskOrder
