import CaskOrder.Proofs.Schema.SameVerdicts

/-!
# Rearranged and reversed tables

Where the members of the groups are rearranged, the scan of a table meets them in another
order and may find another repeated stanza.  But it stops in the same group and for the same
reason: whether a group has members, and whether the members up to the end of a group are all
different, does not depend on their order.

A table and its reverse have the same members altogether, so one of them is built if and only
if the other is.  The ranks then run the other way, and so do the verdicts.
-/

namespace CaskOrder

namespace GroupTable

/-- The other table has the same groups in the same order, with their members rearranged. -/
def Rearranges (table other : GroupTable) : Prop :=
  List.Forall₂ List.Perm table other

/-- The scan of the table stops at a repeated stanza in the group with the given index. -/
def RepeatsIn (table : GroupTable) (rank : Nat) : Prop :=
  ∃ index stanza, table.RepeatsAt rank index stanza

variable {table other : GroupTable} {rank : Nat}

theorem flatten_take_succ (hlt : rank < table.length) :
    (table.take (rank + 1)).flatten = (table.take rank).flatten ++ table[rank] := by
  rw [List.take_succ_eq_append_getElem hlt, List.flatten_append, List.flatten_singleton]

/-- A stanza is repeated in the first group that cannot be put behind the groups before it
without a repetition, whichever stanza that may be. -/
theorem repeatsIn_iff :
    table.RepeatsIn rank ↔ rank < table.length ∧ (∀ group ∈ table.take (rank + 1), group ≠ []) ∧
      (table.take rank).flatten.Nodup ∧ ¬(table.take (rank + 1)).flatten.Nodup := by
  constructor
  · intro hrepeats
    rcases hrepeats with ⟨index, stanza, group, hgroup, hstanza, hgroups, hnodup, hmem⟩
    rcases List.getElem?_eq_some_iff.mp hgroup with ⟨hlt, hget⟩
    refine ⟨hlt, hgroups, List.Nodup.of_append_left hnodup, ?_⟩
    rw [flatten_take_succ hlt, hget]
    exact not_nodup_of_mem_take hstanza hmem
  · intro h
    rcases h with ⟨hlt, hgroups, hbefore, hrepeated⟩
    have hfront : ∀ group ∈ table.take rank, group ≠ [] := by
      intro group hgroup
      apply hgroups
      rw [List.take_succ_eq_append_getElem hlt]
      exact List.mem_append_left _ hgroup
    -- scanning the group finds the first repetition in it
    rcases Defect.seeTable_ok hfront hbefore with ⟨seen, -, hpassed⟩
    cases hscan : Defect.seeGroup seen table[rank] with
    | ok after =>
        have hnodup := (Defect.seeGroup_passed hpassed hscan).nodup
        rw [flatten_take_succ hlt] at hrepeated
        exact absurd hnodup hrepeated
    | error defect =>
        rcases Defect.seeGroup_error hpassed hscan with
          ⟨stanza, index, -, hstanza, hnodup, hmem⟩
        exact ⟨index, stanza, table[rank], List.getElem?_eq_getElem hlt, hstanza, hgroups, hnodup,
          hmem⟩

namespace Rearranges

theorem symm (h : table.Rearranges other) : other.Rearranges table :=
  List.Forall₂.flip (h.imp fun _ _ hperm => hperm.symm)

theorem take (h : table.Rearranges other) (count : Nat) :
    Rearranges (table.take count) (other.take count) :=
  List.forall₂_take count h

theorem flatten_nodup_iff (h : table.Rearranges other) :
    table.flatten.Nodup ↔ other.flatten.Nodup :=
  (List.Perm.flatten_congr h).nodup_iff

theorem getElem?_perm (h : table.Rearranges other) {group : Group}
    (hgroup : table[rank]? = some group) :
    ∃ otherGroup, other[rank]? = some otherGroup ∧ group.Perm otherGroup := by
  rcases List.getElem?_eq_some_iff.mp hgroup with ⟨hlt, hget⟩
  have hother : rank < other.length := by
    rw [← h.length_eq]
    exact hlt
  have hperm : table[rank].Perm other[rank] := (List.forall₂_iff_get.mp h).2 rank hlt hother
  rw [hget] at hperm
  exact ⟨other[rank], List.getElem?_eq_getElem hother, hperm⟩

theorem ne_nil (h : table.Rearranges other) (hgroups : ∀ group ∈ table, group ≠ []) :
    ∀ group ∈ other, group ≠ [] := by
  intro group hmem hnil
  rcases List.mem_iff_getElem?.mp hmem with ⟨rank, hget⟩
  rcases h.symm.getElem?_perm hget with ⟨original, horiginal, hperm⟩
  rw [hnil] at hperm
  exact hgroups original (List.mem_of_getElem? horiginal) hperm.symm.eq_nil

theorem sameMembers (h : table.Rearranges other) : table.SameMembers other where
  length_eq := h.length_eq
  mem_iff rank group otherGroup hgroup hother stanza := by
    rcases h.getElem?_perm hgroup with ⟨found, hfound, hperm⟩
    have heq : found = otherGroup := Option.some.inj (hfound.symm.trans hother)
    rw [← heq]
    exact hperm.mem_iff

/-! ## Where the scan stops -/

theorem emptyAt (h : table.Rearranges other) (hempty : table.EmptyAt rank) :
    other.EmptyAt rank := by
  rcases hempty with ⟨hget, hgroups, hnodup⟩
  rcases h.getElem?_perm hget with ⟨group, hgroup, hperm⟩
  rw [hperm.symm.eq_nil] at hgroup
  exact ⟨hgroup, (h.take rank).ne_nil hgroups, (h.take rank).flatten_nodup_iff.mp hnodup⟩

theorem repeatsIn (h : table.Rearranges other) (hrepeats : table.RepeatsIn rank) :
    other.RepeatsIn rank := by
  rw [repeatsIn_iff] at hrepeats ⊢
  rcases hrepeats with ⟨hlt, hgroups, hbefore, hrepeated⟩
  rw [h.length_eq] at hlt
  rw [(h.take rank).flatten_nodup_iff] at hbefore
  rw [(h.take (rank + 1)).flatten_nodup_iff] at hrepeated
  exact ⟨hlt, (h.take (rank + 1)).ne_nil hgroups, hbefore, hrepeated⟩

theorem eq_nil (h : table.Rearranges other) (hnil : table = []) : other = [] := by
  subst hnil
  exact List.forall₂_nil_left_iff.mp h

theorem sound (h : table.Rearranges other) (hsound : Defect.first? table = none) :
    Defect.first? other = none := by
  rw [Defect.first?_eq_none_iff] at hsound ⊢
  rcases hsound with ⟨htable, hgroups, hnodup⟩
  exact ⟨mt h.symm.eq_nil htable, h.ne_nil hgroups, h.flatten_nodup_iff.mp hnodup⟩

end Rearranges

/-! ## The reversed table -/

theorem flatten_reverse_perm (table : GroupTable) :
    table.reverse.flatten.Perm table.flatten :=
  (List.reverse_perm table).flatten

theorem sound_reverse_iff :
    Defect.first? table.reverse = none ↔ Defect.first? table = none := by
  simp only [Defect.first?_eq_none_iff, Ne, List.reverse_eq_nil_iff, List.mem_reverse,
    (flatten_reverse_perm table).nodup_iff]

theorem declares_reverse {stanza : Stanza} (hdeclares : table.Declares rank stanza) :
    Declares table.reverse (table.length - 1 - rank) stanza := by
  rcases hdeclares with ⟨group, hgroup, hmem⟩
  have hlt : rank < table.length := (List.getElem?_eq_some_iff.mp hgroup).1
  refine ⟨group, ?_, hmem⟩
  have hback : table.length - 1 - (table.length - 1 - rank) = rank := by omega
  rw [List.getElem?_reverse (by omega), hback]
  exact hgroup

end GroupTable

namespace Schema

/-- Both tables are built, or both are refused for a defect of the same kind. -/
structure BuiltAlike (table other : GroupTable) : Prop where
  built_iff : (∃ schema, (build table).value = .ok schema) ↔
    ∃ schema, (build other).value = .ok schema
  repeated_iff : (∃ stanza, (build table).value = .error (.repeated stanza)) ↔
    ∃ stanza, (build other).value = .error (.repeated stanza)
  emptyGroup_iff : (build table).value = .error .emptyGroup ↔
    (build other).value = .error .emptyGroup

theorem exists_repeated_iff {table : GroupTable} :
    (∃ stanza, (build table).value = .error (.repeated stanza)) ↔
      ∃ rank, table.RepeatsIn rank := by
  simp only [build_eq_error_iff, Defect.first?_eq_repeated_iff]
  constructor
  · intro h
    rcases h with ⟨stanza, rank, index, hrepeats⟩
    exact ⟨rank, index, stanza, hrepeats⟩
  · intro h
    rcases h with ⟨rank, index, stanza, hrepeats⟩
    exact ⟨stanza, rank, index, hrepeats⟩

theorem builtAlike_of_rearranges {table other : GroupTable} (h : table.Rearranges other) :
    BuiltAlike table other where
  built_iff := by
    rw [build_ok_iff, build_ok_iff]
    exact ⟨h.sound, h.symm.sound⟩
  repeated_iff := by
    rw [exists_repeated_iff, exists_repeated_iff]
    exact exists_congr fun _ => ⟨h.repeatsIn, h.symm.repeatsIn⟩
  emptyGroup_iff := by
    simp only [build_eq_error_iff, Defect.first?_eq_emptyGroup_iff]
    exact or_congr ⟨h.eq_nil, h.symm.eq_nil⟩
      (exists_congr fun _ => ⟨h.emptyAt, h.symm.emptyAt⟩)

/-- The stanza that is named can be another one. -/
example :
    Defect.first? [[⟨"app"⟩, ⟨"pkg"⟩], [⟨"pkg"⟩, ⟨"app"⟩]] = some (.repeated ⟨"pkg"⟩) ∧
      Defect.first? [[⟨"app"⟩, ⟨"pkg"⟩], [⟨"app"⟩, ⟨"pkg"⟩]] = some (.repeated ⟨"app"⟩) := by
  decide +kernel

section

variable {schema reversed : Schema}

theorem rank?_reversed (hgroups : reversed.groups = schema.groups.reverse) (stanza : Stanza) :
    reversed.rank? stanza =
      (schema.rank? stanza).map fun rank => schema.groupCount - 1 - rank := by
  have horder : reversed.order.Perm schema.order := by
    rw [reversed.order_eq, schema.order_eq, hgroups]
    exact GroupTable.flatten_reverse_perm schema.groups
  cases hrank : schema.rank? stanza with
  | none =>
      have habsent : stanza ∉ schema.order := rank?_eq_none_iff_not_mem.mp hrank
      exact rank?_eq_none_iff_not_mem.mpr (mt horder.mem_iff.mp habsent)
  | some rank =>
      have hdeclares := GroupTable.declares_reverse (rank?_eq_some_iff_declares.mp hrank)
      rw [← hgroups] at hdeclares
      exact rank?_eq_some_iff_declares.mpr hdeclares

theorem verdict_reversed (hgroups : reversed.groups = schema.groups.reverse) (a b : Stanza) :
    reversed.verdict a b = schema.verdict b a := by
  rw [verdict, verdict, rank?_reversed hgroups, rank?_reversed hgroups]
  cases ha : schema.rank? a with
  | none => cases schema.rank? b <;> rfl
  | some ra =>
      cases hb : schema.rank? b with
      | none => rfl
      | some rb =>
          have hra : ra < schema.groupCount := rank_lt_length ha
          have hrb : rb < schema.groupCount := rank_lt_length hb
          have hbefore : schema.groupCount - 1 - ra < schema.groupCount - 1 - rb ↔ rb < ra := by
            omega
          have hafter : schema.groupCount - 1 - rb < schema.groupCount - 1 - ra ↔ ra < rb := by
            omega
          simp only [Option.map_some, hbefore, hafter]

end

/-- Rearranging the members of the groups changes neither whether a table is built, nor the
kind of defect it is refused for, nor what the schema answers about membership, ranks and
verdicts.  Reversing a table keeps it buildable, counts the ranks from the other end, and
exchanges the stanzas of every verdict. -/
theorem build_rearranged_or_reversed (table : GroupTable) :
    (∀ other, table.Rearranges other → BuiltAlike table other ∧
        ∀ schema rearranged, (build table).value = .ok schema →
          (build other).value = .ok rearranged →
            ∀ a, rearranged.contains a = schema.contains a ∧
              rearranged.rank? a = schema.rank? a ∧
              ∀ b, rearranged.verdict a b = schema.verdict a b) ∧
      ((∃ schema, (build table).value = .ok schema) ↔
        ∃ reversed, (build table.reverse).value = .ok reversed) ∧
      ∀ schema reversed, (build table).value = .ok schema →
        (build table.reverse).value = .ok reversed →
          (∀ a b, reversed.verdict a b = schema.verdict b a) ∧
            ∀ a, reversed.rank? a =
              (schema.rank? a).map fun rank => schema.groupCount - 1 - rank := by
  refine ⟨?_, ?_, ?_⟩
  · intro other h
    refine ⟨builtAlike_of_rearranges h, ?_⟩
    intro schema rearranged hbuild hrearranged a
    have hsame : rearranged.groups.SameMembers schema.groups := by
      rw [groups_of_build hbuild, groups_of_build hrearranged]
      exact h.symm.sameMembers
    have hranks := rank?_eq_of_sameMembers hsame
    exact ⟨contains_eq_of_ranks hranks a, hranks a, verdict_eq_of_ranks hranks a⟩
  · rw [build_ok_iff, build_ok_iff, GroupTable.sound_reverse_iff]
  · intro schema reversed hbuild hreversed
    have hgroups : reversed.groups = schema.groups.reverse := by
      rw [groups_of_build hreversed, groups_of_build hbuild]
    exact ⟨verdict_reversed hgroups, rank?_reversed hgroups⟩

/-- In the reversed table of a cask the fourth group from the front is the fourth from the
end. -/
theorem build_cask_backwards :
    let inGroups := GroupTable.cask.map List.reverse
    GroupTable.cask.Rearranges inGroups ∧
      ∃ schema rearranged reversed, (build GroupTable.cask).value = .ok schema ∧
        (build inGroups).value = .ok rearranged ∧
        (build GroupTable.cask.reverse).value = .ok reversed ∧
        rearranged.rank? ⟨"url"⟩ = some 3 ∧ reversed.rank? ⟨"url"⟩ = some 10 ∧
        reversed.verdict ⟨"version"⟩ ⟨"url"⟩ = .after := by
  intro inGroups
  rcases build_rearranged_or_reversed GroupTable.cask with ⟨hrearranged, hreversible, hreversed⟩
  have hrearranges : GroupTable.cask.Rearranges inGroups := by
    apply List.forall₂_map_right_iff.mpr
    exact List.forall₂_same.mpr fun group _ => (List.reverse_perm group).symm
  rcases hrearranged inGroups hrearranges with ⟨halike, hanswers⟩
  have hcask : (build GroupTable.cask).value = .ok cask := by
    rw [build_of_sound GroupTable.cask_sound, cask]
  rcases halike.built_iff.mp ⟨cask, hcask⟩ with ⟨rearranged, hbuilt⟩
  rcases hreversible.mp ⟨cask, hcask⟩ with ⟨reversed, hback⟩
  have hurl : cask.rank? ⟨"url"⟩ = some 3 :=
    rank?_eq_some_iff_declares.mpr ⟨_, rfl, by decide⟩
  have hversion : cask.rank? ⟨"version"⟩ = some 1 :=
    rank?_eq_some_iff_declares.mpr ⟨_, rfl, by decide⟩
  rcases hreversed cask reversed hcask hback with ⟨hverdicts, hranks⟩
  refine ⟨hrearranges, cask, rearranged, reversed, hcask, hbuilt, hback, ?_, ?_, ?_⟩
  · rw [(hanswers cask rearranged hcask hbuilt ⟨"url"⟩).2.1]
    exact hurl
  · rw [hranks]
    exact congrArg (Option.map fun rank => cask.groupCount - 1 - rank) hurl
  · rw [hverdicts]
    exact (verdict_of_ranks hurl hversion).2.1.mpr (by decide)

end Schema
end CaskOrder
