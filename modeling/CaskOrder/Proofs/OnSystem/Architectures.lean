import CaskOrder.Proofs.Config.Platform
import CaskOrder.Proofs.OnSystem.Lookup

/-!
# Blocks for the architectures

A cask may always branch on the architecture, so a set of block names is meant to lead from
`on_arm` and `on_intel` to the two architectures, and never to be empty.  Both architectures
are put in front of the releases when a set is derived from these, whether they are given
directly or in a configuration.

A set that is made from a list of targets takes the list as it is.  The main statement says
which lists keep the promise: those in which the first target with the tag of an architecture
is that architecture.
-/

namespace CaskOrder

namespace BlockNames

/-- The set is not empty, and the names of the blocks for architectures lead to these. -/
structure HasArchitectures (set : BlockNames) : Prop where
  not_empty : set.isEmpty = false
  arm : set.target? "on_arm" = some (.arch .arm)
  intel : set.target? "on_intel" = some (.arch .intel)

variable {set : BlockNames}

theorem isEmpty_eq_false_iff : set.isEmpty = false ↔ set.targets ≠ [] := by
  rw [isEmpty, List.isEmpty_eq_false_iff, set.names_eq, Ne, List.map_eq_nil_iff]

theorem target?_blockName (set : BlockNames) (tag : String) :
    set.target? (blockName tag) = set.targets.find? fun target => target.tag == tag := by
  rw [target?_eq_find?]
  congr 1
  funext target
  rw [Bool.eq_iff_iff, beq_iff_eq, beq_iff_eq]
  exact ⟨blockName_injective, congrArg blockName⟩

theorem hasArchitectures_iff :
    set.HasArchitectures ↔ ∀ arch : Arch,
      (set.targets.find? fun target => target.tag == arch.tag) = some (.arch arch) := by
  simp only [← target?_blockName]
  constructor
  · intro hset arch
    cases arch with
    | arm => exact hset.arm
    | intel => exact hset.intel
  · intro hfound
    refine ⟨?_, hfound .arm, hfound .intel⟩
    rw [isEmpty_eq_false_iff]
    exact List.ne_nil_of_mem (mem_targets_of_target? (hfound .arm))

/-- No release can come before the architectures, whatever its tag is. -/
theorem ofReleases_hasArchitectures (symbols : List String) :
    (ofReleases symbols).value.HasArchitectures := by
  rw [hasArchitectures_iff]
  intro arch
  cases arch <;> rfl

/-- A set made from targets is empty only if there are none.  It leads to the architectures if
and only if each of them is the first of the targets with its tag.  A set derived from releases
always does, and so does one derived from a configured platform. -/
theorem hasArchitectures_where_first (targets : List Target) :
    ((ofTargets targets).value.isEmpty = false ↔ targets ≠ []) ∧
      ((ofTargets targets).value.HasArchitectures ↔ ∀ arch : Arch,
        (targets.find? fun target => target.tag == arch.tag) = some (.arch arch)) ∧
      (∀ symbols, (ofReleases symbols).value.HasArchitectures) ∧
      ∀ json set, (ofJson json).value = .ok set → set.HasArchitectures := by
  refine ⟨isEmpty_eq_false_iff, hasArchitectures_iff, ofReleases_hasArchitectures, ?_⟩
  intro json set hload
  rcases exists_parse_of_ofJson hload with ⟨symbols, -, -, hset⟩
  rw [hset]
  exact ofReleases_hasArchitectures symbols

/-- The architectures need not come first of all, and a release with the tag of one of them
does no harm behind it. -/
theorem architectures_before_arm_release :
    (ofTargets [.release "ventura", .arch .intel, .arch .arm,
        .release "arm"]).value.HasArchitectures ∧
      ∃ set, (ofJson "\x7b\"versions\":[\"arm\"]\x7d").value = .ok set ∧
        set.HasArchitectures := by
  rcases hasArchitectures_where_first [.release "ventura", .arch .intel, .arch .arm,
    .release "arm"] with ⟨-, htargets, -, hloaded⟩
  have hread : (ofJson "\x7b\"versions\":[\"arm\"]\x7d").value.isOk = true := by
    decide +kernel
  constructor
  · apply htargets.mpr
    intro arch
    cases arch <;> rfl
  · cases hload : (ofJson "\x7b\"versions\":[\"arm\"]\x7d").value with
    | error error =>
        rw [hload] at hread
        cases hread
    | ok set => exact ⟨set, rfl, hloaded _ set hload⟩

/-- A set made from no targets is empty and has no block for an architecture. -/
theorem no_targets_no_architectures :
    (ofTargets []).value.isEmpty = true ∧ (ofTargets []).value.target? "on_arm" = none ∧
      (ofTargets []).value.target? "on_intel" = none :=
  ⟨rfl, rfl, rfl⟩

end BlockNames
end CaskOrder
