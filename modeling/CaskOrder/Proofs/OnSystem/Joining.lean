import CaskOrder.Proofs.OnSystem.Repetitions

/-!
# Joining sets of block names

The targets of joined sets stand one after the other, and so do their names.  Since a lookup
finds the first target with a name, the join leaves every name to the first entry of the list
that contains it, and what that entry finds is what the join finds.

The log of a join is that of any other derivation.  It is free of warnings only if no entry
repeats a name by itself and no name is shared by two entries.
-/

namespace CaskOrder

namespace BlockNames

theorem names_join (sets : List BlockNames) : (join sets).value.names = sets.flatMap names := by
  rw [(join sets).value.names_eq]
  change (sets.flatMap targets).map Target.blockName = _
  rw [List.map_flatMap]
  congr 1
  funext set
  exact set.names_eq.symm

theorem contains_iff_isSome_target? {set : BlockNames} {name : String} :
    set.contains name = true ↔ (set.target? name).isSome = true := by
  rw [contains_iff_mem_names, ← Option.ne_none_iff_isSome, Ne, target?_eq_none_iff, not_not]

theorem contains_join_iff {sets : List BlockNames} {name : String} :
    (join sets).value.contains name = true ↔ ∃ set ∈ sets, set.contains name = true := by
  simp only [contains_iff_mem_names, names_join, List.mem_flatMap]

/-- An entry that finds a target for a name hides all entries behind it. -/
theorem findSome?_target? (sets : List BlockNames) (name : String) :
    (sets.findSome? fun set => set.target? name) =
      (sets.find? fun set => set.contains name).bind fun set => set.target? name := by
  induction sets with
  | nil => rfl
  | cons set sets ih =>
      rw [List.findSome?_cons, List.find?_cons]
      cases hfound : set.target? name with
      | none =>
          have hnot : set.contains name = false := by
            rw [← Bool.not_eq_true, contains_iff_isSome_target?, hfound]
            simp
          rw [hnot]
          exact ih
      | some target =>
          have hcontains : set.contains name = true := by
            rw [contains_iff_isSome_target?, hfound]
            rfl
          rw [hcontains]
          exact hfound.symm

theorem target?_join (sets : List BlockNames) (name : String) :
    (join sets).value.target? name =
      (sets.find? fun set => set.contains name).bind fun set => set.target? name := by
  rw [← findSome?_target?, target?_eq_find?]
  change ((sets.flatMap targets).find? _) = _
  rw [List.find?_flatMap]
  congr 1
  funext set
  exact (set.target?_eq_find? name).symm

theorem warnings_join_eq_nil_iff {sets : List BlockNames} :
    (join sets).atLevel .warn = [] ↔
      (∀ set ∈ sets, set.names.Nodup) ∧
        sets.Pairwise fun set other => set.names.Disjoint other.names := by
  have hwarns : WarnsOfRepetitions (join sets) := ofTargets_warnsOfRepetitions _
  rw [hwarns.none_iff, names_join, List.nodup_flatMap]

/-- The set has the targets and the names of the entries of the list one after the other.  A name
belongs to it if it belongs to an entry, and leads where the first of these entries leads it. -/
structure AnswersByFirst (joined : BlockNames) (sets : List BlockNames) : Prop where
  targets_eq : joined.targets = sets.flatMap targets
  names_eq : joined.names = sets.flatMap names
  contains_iff : ∀ name,
    joined.contains name = true ↔ ∃ set ∈ sets, set.contains name = true
  target?_eq : ∀ name, joined.target? name =
    (sets.find? fun set => set.contains name).bind fun set => set.target? name

/-- A join answers by the first of its entries that has an answer.  It is made without a warning
if and only if no name occurs twice in an entry or in two entries of the list. -/
theorem join_answers_by_first (sets : List BlockNames) :
    (join sets).value.AnswersByFirst sets ∧
      ((join sets).atLevel .warn = [] ↔
        (∀ set ∈ sets, set.names.Nodup) ∧
          sets.Pairwise fun set other => set.names.Disjoint other.names) := by
  constructor
  · exact
      { targets_eq := rfl
        names_eq := names_join sets
        contains_iff := fun _ => contains_join_iff
        target?_eq := target?_join sets }
  · exact warnings_join_eq_nil_iff

/-- A release with the tag of an architecture is found where its set comes first. -/
example :
    let arm := (ofTargets [.release "arm"]).value
    let releases := (ofReleases ["arm"]).value
    (join [arm, releases]).value.target? "on_arm" = some (.release "arm") ∧
      (join [releases, arm]).value.target? "on_arm" = some (.arch .arm) := by
  decide +kernel

end BlockNames
end CaskOrder
