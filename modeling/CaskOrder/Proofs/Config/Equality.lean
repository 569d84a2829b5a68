import CaskOrder.Proofs.Config.Platform
import CaskOrder.Proofs.OnSystem.Lookup

/-!
# Equal schemas and equal sets

Schemas and sets of block names are compared with everything that was derived from them, and
they are written without it.  Both come to the same as comparing what they were made from: a
schema is its group table, and its text tells the table; a set is its list of targets.

The text of a set tells less, since a name tells the tag of its target but not the kind.
-/

namespace CaskOrder

/-! ## Schemas -/

theorem Schema.beq_iff_groups_eq {schema other : Schema} :
    (schema == other) = true ↔ schema.groups = other.groups := by
  rw [Schema.beq_iff_eq]
  constructor
  · intro h
    rw [h]
  · exact Schema.eq_of_groups_eq

/-- Whatever is loaded from a text was exported as it, so an export belongs to one schema. -/
theorem Schema.eq_of_text_eq {schema other : Schema}
    (htext : schema.toValue.text = other.toValue.text) : schema = other := by
  have hload := schema.ofJson_export
  rw [htext, other.ofJson_export, Except.ok.injEq] at hload
  exact hload.symm

theorem Report.around_injective {data data' : String}
    (h : Report.around data = Report.around data') : data = data' := by
  have hfront : "\x7b\"success\":true,\"data\":" ++ data =
      "\x7b\"success\":true,\"data\":" ++ data' := (String.append_left_inj "\x7d").mp h
  exact (String.append_right_inj _).mp hfront

theorem Report.ofSchema_text_eq_iff {schema other : Schema} :
    (Report.ofSchema schema).text = (Report.ofSchema other).text ↔
      schema.groups = other.groups := by
  constructor
  · intro htext
    rw [Report.ofSchema, Report.ofSchema, Report.text_ofData, Report.text_ofData] at htext
    rw [Schema.eq_of_text_eq (Report.around_injective htext)]
  · intro hgroups
    rw [Schema.eq_of_groups_eq hgroups]

/-! ## Sets of block names -/

/-- Targets are known by their tags and their kinds. -/
theorem Target.list_eq_iff {targets others : List Target} :
    targets = others ↔
      targets.map tag = others.map tag ∧ targets.map isArch = others.map isArch := by
  constructor
  · intro h
    rw [h]
    exact ⟨rfl, rfl⟩
  · intro h
    induction targets generalizing others with
    | nil => exact (List.map_eq_nil_iff.mp h.1.symm).symm
    | cons target targets ih =>
        cases others with
        | nil => cases h.1
        | cons other others =>
            simp only [List.map_cons, List.cons.injEq] at h
            rw [Target.eq_of_tag_eq h.1.1 h.2.1, ih ⟨h.1.2, h.2.2⟩]

namespace BlockNames

variable {set other : BlockNames}

theorem eq_of_targets_eq (h : set.targets = other.targets) : set = other := by
  rcases set with ⟨targets, names, lookup, hnames, hlookup⟩
  rcases other with ⟨targets', names', lookup', hnames', hlookup'⟩
  change targets = targets' at h
  subst h hnames hnames' hlookup hlookup'
  rfl

theorem beq_iff_targets_eq : (set == other) = true ↔ set.targets = other.targets := by
  change (set.names == other.names && set.targets == other.targets &&
    set.lookup == other.lookup) = true ↔ _
  constructor
  · intro h
    simp only [Bool.and_eq_true] at h
    exact eq_of_beq h.1.2
  · intro h
    have hlookup : (other.lookup == other.lookup) = true := Std.TreeMap.Equiv.beq .rfl
    rw [eq_of_targets_eq h]
    simp [hlookup]

theorem names_eq_map_tag (set : BlockNames) :
    set.names = (set.targets.map Target.tag).map blockName := by
  rw [set.names_eq, List.map_map]
  rfl

theorem names_eq_iff_tags_eq :
    set.names = other.names ↔ set.targets.map Target.tag = other.targets.map Target.tag := by
  rw [names_eq_map_tag, names_eq_map_tag]
  constructor
  · intro h
    exact List.map_injective_iff.mpr (fun _ _ => blockName_injective) h
  · intro h
    rw [h]

/-- The names that a platform is loaded with are those in its text. -/
theorem names_eq_iff_text_eq :
    set.names = other.names ↔ set.toValue.text = other.toValue.text := by
  constructor
  · intro h
    rw [toValue, toValue, h]
  · intro htext
    have hparse := parse_platformText set
    rw [htext, parse_platformText other, Except.ok.injEq] at hparse
    exact hparse.symm

end BlockNames

/-- Schemas are equal if and only if their groups are, and if and only if the reports on them
are the same text.  Sets of block names are equal if and only if their targets have the same
tags and kinds in order.  Their names and their texts tell the tags only, so that different sets
may have the same names. -/
theorem equal_iff_made_alike :
    (∀ schema other : Schema,
      ((schema == other) = true ↔ schema.groups = other.groups) ∧
        ((schema == other) = true ↔
          (Report.ofSchema schema).text = (Report.ofSchema other).text)) ∧
      (∀ set other : BlockNames,
        ((set == other) = true ↔ set.targets = other.targets) ∧
          (set.targets = other.targets ↔
            set.targets.map Target.tag = other.targets.map Target.tag ∧
              set.targets.map Target.isArch = other.targets.map Target.isArch) ∧
          (set.names = other.names ↔ set.toValue.text = other.toValue.text) ∧
          (set.names = other.names ↔
            set.targets.map Target.tag = other.targets.map Target.tag)) ∧
      ∃ set other : BlockNames, set.names = other.names ∧ (set == other) = false := by
  refine ⟨?_, ?_, ?_⟩
  · intro schema other
    have hgroups : (schema == other) = true ↔ schema.groups = other.groups :=
      Schema.beq_iff_groups_eq
    exact ⟨hgroups, hgroups.trans Report.ofSchema_text_eq_iff.symm⟩
  · intro set other
    exact ⟨BlockNames.beq_iff_targets_eq, Target.list_eq_iff, BlockNames.names_eq_iff_text_eq,
      BlockNames.names_eq_iff_tags_eq⟩
  · exact ⟨(BlockNames.ofTargets [.arch .arm]).value,
      (BlockNames.ofTargets [.release "arm"]).value, rfl, by decide +kernel⟩

end CaskOrder
