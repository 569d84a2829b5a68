import CaskOrder.Proofs.Schema.FirstDefect
import Mathlib.Tactic
import Std.Data.TreeMap.Lemmas

/-!
# Places

The index of a schema is filled by inserting the places of a table one after the other,
so that a later place of a stanza would overwrite an earlier one.  In a table without
defects no stanza has two places, and therefore the index holds exactly the places that
are counted in the table.

The main statement is that every question to a schema is answered as by a scan of its
groups, for stanzas that it contains and for all others.
-/

namespace CaskOrder

theorem getElem?_flatten_iff {lists : List (List α)} {position : Nat} {item : α} :
    lists.flatten[position]? = some item ↔
      ∃ rank items index, lists[rank]? = some items ∧ items[index]? = some item ∧
        position = (lists.take rank).flatten.length + index := by
  induction lists generalizing position with
  | nil => simp
  | cons first lists ih =>
      rw [List.flatten_cons]
      constructor
      · intro hget
        by_cases hlt : position < first.length
        · rw [List.getElem?_append_left hlt] at hget
          exact ⟨0, first, position, rfl, hget, by simp⟩
        · rw [List.getElem?_append_right (by omega)] at hget
          obtain ⟨rank, items, index, hitems, hitem, hposition⟩ := ih.mp hget
          refine ⟨rank + 1, items, index, hitems, hitem, ?_⟩
          simp only [List.take_succ_cons, List.flatten_cons, List.length_append]
          omega
      · rintro ⟨rank, items, index, hitems, hitem, rfl⟩
        cases rank with
        | zero =>
            cases hitems
            have hlt : index < first.length := (List.getElem?_eq_some_iff.mp hitem).1
            simpa [List.getElem?_append_left hlt] using hitem
        | succ rank =>
            have hrest := ih.mpr ⟨rank, items, index, hitems, hitem, rfl⟩
            simp only [List.take_succ_cons, List.flatten_cons, List.length_append]
            rw [List.getElem?_append_right (by omega)]
            simpa [Nat.add_assoc] using hrest

namespace GroupTable

/-- The group at the rank has the stanza at the index, and the position counts what stands
before it. -/
def HasPlace (table : GroupTable) (stanza : Stanza) (place : Place) : Prop :=
  ∃ group index, table[place.rank]? = some group ∧ group[index]? = some stanza ∧
    place.position = (table.take place.rank).flatten.length + index

/-- The groups of a table with the members marked by the index of their group. -/
def rankedGroups (table : GroupTable) : List (List (Stanza × Nat)) :=
  table.zipIdx.map fun (group, rank) => group.map (·, rank)

theorem ranked_eq_flatten (table : GroupTable) : ranked table = (rankedGroups table).flatten := by
  rw [ranked, rankedGroups, List.flatMap]

theorem rankedGroups_map (table : GroupTable) :
    (rankedGroups table).map (List.map Prod.fst) = table := by
  simp [rankedGroups, Function.comp_def]

theorem getElem?_rankedGroups (table : GroupTable) (rank : Nat) :
    (rankedGroups table)[rank]? = table[rank]?.map fun group => group.map (·, rank) := by
  simp [rankedGroups, List.getElem?_zipIdx, Function.comp_def]

theorem length_flatten_take_rankedGroups (table : GroupTable) (rank : Nat) :
    ((rankedGroups table).take rank).flatten.length = (table.take rank).flatten.length := by
  conv_rhs => rw [← rankedGroups_map table, ← List.map_take, ← List.map_flatten]
  rw [List.length_map]

theorem ranked_map_fst (table : GroupTable) : (ranked table).map Prod.fst = table.flatten := by
  rw [ranked_eq_flatten, List.map_flatten, rankedGroups_map]

theorem places_map_fst (table : GroupTable) : (places table).map Prod.fst = table.flatten := by
  rw [← ranked_map_fst, places, List.map_map]
  conv_rhs => rw [← List.zipIdx_map_fst 0 (ranked table), List.map_map]
  rfl

theorem getElem?_ranked_iff {table : GroupTable} {stanza : Stanza} {place : Place} :
    (ranked table)[place.position]? = some (stanza, place.rank) ↔
      table.HasPlace stanza place := by
  rw [ranked_eq_flatten, getElem?_flatten_iff]
  constructor
  · rintro ⟨rank, items, index, hitems, hitem, hposition⟩
    rw [getElem?_rankedGroups, Option.map_eq_some_iff] at hitems
    obtain ⟨group, hgroup, rfl⟩ := hitems
    rw [List.getElem?_map, Option.map_eq_some_iff] at hitem
    obtain ⟨other, hother, heq⟩ := hitem
    cases heq
    rw [length_flatten_take_rankedGroups] at hposition
    exact ⟨group, index, hgroup, hother, hposition⟩
  · rintro ⟨group, index, hgroup, hstanza, hposition⟩
    refine ⟨place.rank, group.map (·, place.rank), index, ?_, ?_, ?_⟩
    · rw [getElem?_rankedGroups, hgroup, Option.map_some]
    · rw [List.getElem?_map, hstanza, Option.map_some]
    · rw [length_flatten_take_rankedGroups, hposition]

theorem mem_places_iff {table : GroupTable} {stanza : Stanza} {place : Place} :
    (stanza, place) ∈ places table ↔ table.HasPlace stanza place := by
  rw [← getElem?_ranked_iff, places, List.mem_map]
  constructor
  · rintro ⟨⟨⟨other, rank⟩, position⟩, hmem, heq⟩
    cases heq
    exact List.mem_zipIdx_iff_getElem?.mp hmem
  · intro hget
    exact ⟨((stanza, place.rank), place.position), List.mem_zipIdx_iff_getElem?.mpr hget, rfl⟩

theorem getElem?_flatten_of_hasPlace {table : GroupTable} {stanza : Stanza} {place : Place}
    (hplace : table.HasPlace stanza place) : table.flatten[place.position]? = some stanza := by
  obtain ⟨group, index, hgroup, hstanza, hposition⟩ := hplace
  exact getElem?_flatten_iff.mpr ⟨place.rank, group, index, hgroup, hstanza, hposition⟩

theorem exists_hasPlace {table : GroupTable} {stanza : Stanza} {position : Nat}
    (hget : table.flatten[position]? = some stanza) :
    ∃ rank, table.HasPlace stanza ⟨rank, position⟩ := by
  obtain ⟨rank, group, index, hgroup, hstanza, hposition⟩ := getElem?_flatten_iff.mp hget
  exact ⟨rank, group, index, hgroup, hstanza, hposition⟩

end GroupTable

namespace Schema

variable (schema : Schema)

theorem groups_ne_nil : schema.groups ≠ [] :=
  (Defect.first?_eq_none_iff.mp schema.sound).1

theorem group_ne_nil : ∀ group ∈ schema.groups, group ≠ [] :=
  (Defect.first?_eq_none_iff.mp schema.sound).2.1

theorem order_nodup : schema.order.Nodup := by
  rw [schema.order_eq]
  exact (Defect.first?_eq_none_iff.mp schema.sound).2.2

/-- The index holds exactly the places that are counted in the table. -/
theorem getElem?_places_eq_some_iff {stanza : Stanza} {place : Place} :
    schema.places[stanza]? = some place ↔ schema.groups.HasPlace stanza place := by
  have hkeys := GroupTable.places_map_fst schema.groups
  have hnodup : ((GroupTable.places schema.groups).map Prod.fst).Nodup := by
    rw [hkeys, ← schema.order_eq]
    exact schema.order_nodup
  have hdistinct : (GroupTable.places schema.groups).Pairwise
      fun a b => ¬compare a.1 b.1 = .eq := by
    simpa [List.Nodup, List.pairwise_map] using hnodup
  have hfound : ∀ place, schema.groups.HasPlace stanza place →
      schema.places[stanza]? = some place := by
    intro place hplace
    rw [schema.places_eq]
    exact Std.TreeMap.getElem?_ofList_of_mem (by simp) hdistinct
      (GroupTable.mem_places_iff.mpr hplace)
  refine ⟨fun hget => ?_, hfound place⟩
  by_cases hmem : stanza ∈ schema.groups.flatten
  · obtain ⟨position, hposition⟩ := List.mem_iff_getElem?.mp hmem
    obtain ⟨rank, hplace⟩ := GroupTable.exists_hasPlace hposition
    rw [hfound _ hplace, Option.some.injEq] at hget
    exact hget ▸ hplace
  · have hnone : schema.places[stanza]? = none := by
      rw [schema.places_eq]
      refine Std.TreeMap.getElem?_ofList_of_contains_eq_false ?_
      rw [hkeys]
      simpa using hmem
    rw [hnone] at hget
    cases hget

variable {schema}

/-! ## Questions about a stanza -/

theorem rank?_eq_some_iff {stanza : Stanza} {rank : Nat} :
    schema.rank? stanza = some rank ↔
      ∃ position, schema.groups.HasPlace stanza ⟨rank, position⟩ := by
  rw [rank?, Option.map_eq_some_iff]
  constructor
  · rintro ⟨⟨_, position⟩, hplace, rfl⟩
    exact ⟨position, schema.getElem?_places_eq_some_iff.mp hplace⟩
  · rintro ⟨position, hplace⟩
    exact ⟨⟨rank, position⟩, schema.getElem?_places_eq_some_iff.mpr hplace, rfl⟩

theorem position?_eq_some_iff {stanza : Stanza} {position : Nat} :
    schema.position? stanza = some position ↔
      ∃ rank, schema.groups.HasPlace stanza ⟨rank, position⟩ := by
  rw [position?, Option.map_eq_some_iff]
  constructor
  · rintro ⟨⟨rank, _⟩, hplace, rfl⟩
    exact ⟨rank, schema.getElem?_places_eq_some_iff.mp hplace⟩
  · rintro ⟨rank, hplace⟩
    exact ⟨⟨rank, position⟩, schema.getElem?_places_eq_some_iff.mpr hplace, rfl⟩

theorem group?_eq_some_iff {stanza : Stanza} {group : Group} :
    schema.group? stanza = some group ↔
      ∃ rank, schema.rank? stanza = some rank ∧ schema.groups[rank]? = some group := by
  rw [group?, rank?]
  cases schema.places[stanza]? <;> simp

theorem rank?_eq_some_iff_mem {stanza : Stanza} {rank : Nat} :
    schema.rank? stanza = some rank ↔
      ∃ group, schema.groups[rank]? = some group ∧ stanza ∈ group := by
  rw [rank?_eq_some_iff]
  constructor
  · rintro ⟨position, group, index, hgroup, hstanza, -⟩
    exact ⟨group, hgroup, List.mem_of_getElem? hstanza⟩
  · rintro ⟨group, hgroup, hmem⟩
    obtain ⟨index, hstanza⟩ := List.mem_iff_getElem?.mp hmem
    exact ⟨(schema.groups.take rank).flatten.length + index, group, index, hgroup, hstanza, rfl⟩

theorem position?_eq_some_iff_getElem? {stanza : Stanza} {position : Nat} :
    schema.position? stanza = some position ↔ schema.order[position]? = some stanza := by
  rw [position?_eq_some_iff, schema.order_eq]
  constructor
  · rintro ⟨rank, hplace⟩
    exact GroupTable.getElem?_flatten_of_hasPlace hplace
  · exact GroupTable.exists_hasPlace

theorem contains_iff_mem {stanza : Stanza} :
    schema.contains stanza = true ↔ stanza ∈ schema.order := by
  rw [contains, Std.TreeMap.contains_eq_isSome_getElem?, List.mem_iff_getElem?]
  simp only [← position?_eq_some_iff_getElem?, position?]
  cases schema.places[stanza]? <;> simp

theorem rank?_eq_none_iff {stanza : Stanza} :
    schema.rank? stanza = none ↔ schema.contains stanza = false := by
  rw [rank?, contains, Std.TreeMap.contains_eq_isSome_getElem?]
  cases schema.places[stanza]? <;> simp

theorem position?_eq_none_iff {stanza : Stanza} :
    schema.position? stanza = none ↔ schema.contains stanza = false := by
  rw [position?, contains, Std.TreeMap.contains_eq_isSome_getElem?]
  cases schema.places[stanza]? <;> simp

theorem rank_lt_length {stanza : Stanza} {rank : Nat} (hrank : schema.rank? stanza = some rank) :
    rank < schema.groups.length := by
  obtain ⟨group, hgroup, -⟩ := rank?_eq_some_iff_mem.mp hrank
  exact (List.getElem?_eq_some_iff.mp hgroup).1

theorem group?_eq_none_iff {stanza : Stanza} :
    schema.group? stanza = none ↔ schema.contains stanza = false := by
  rw [← rank?_eq_none_iff]
  cases hrank : schema.rank? stanza with
  | none =>
      rw [Option.eq_none_iff_forall_ne_some]
      simp [group?_eq_some_iff, hrank]
  | some rank =>
      obtain ⟨group, hgroup, -⟩ := rank?_eq_some_iff_mem.mp hrank
      have hfound : schema.group? stanza = some group :=
        group?_eq_some_iff.mpr ⟨rank, hrank, hgroup⟩
      simp [hfound]

theorem mem_of_rank? {stanza : Stanza} {rank : Nat} {group : Group}
    (hrank : schema.rank? stanza = some rank) (hgroup : schema.groups[rank]? = some group) :
    stanza ∈ group := by
  obtain ⟨other, hother, hmem⟩ := rank?_eq_some_iff_mem.mp hrank
  rw [hgroup, Option.some.injEq] at hother
  exact hother ▸ hmem

/-- The position counts the members of the groups before, and the members of the stanza's
own group up to the stanza. -/
theorem position?_of_rank? {stanza : Stanza} {rank : Nat} {group : Group}
    (hrank : schema.rank? stanza = some rank) (hgroup : schema.groups[rank]? = some group) :
    schema.position? stanza =
      some (((schema.groups.take rank).map List.length).sum + group.idxOf stanza) := by
  have hindex : group[group.idxOf stanza]? = some stanza :=
    List.getElem?_idxOf (mem_of_rank? hrank hgroup)
  rw [position?_eq_some_iff]
  exact ⟨rank, group, group.idxOf stanza, hgroup, hindex, by rw [List.length_flatten]⟩

/-- The answers about a stanza are those of a scan of the groups. -/
structure AnswersByScan (schema : Schema) (stanza : Stanza) : Prop where
  contains : schema.contains stanza = true ↔ stanza ∈ schema.order
  rank : ∀ rank, schema.rank? stanza = some rank ↔
    ∃ group, schema.groups[rank]? = some group ∧ stanza ∈ group
  position : ∀ position, schema.position? stanza = some position ↔
    schema.order[position]? = some stanza
  group : ∀ group, schema.group? stanza = some group ↔
    stanza ∈ group ∧ ∃ rank, schema.rank? stanza = some rank ∧ schema.groups[rank]? = some group
  position_eq : ∀ rank group, schema.rank? stanza = some rank →
    schema.groups[rank]? = some group →
    schema.position? stanza =
      some (((schema.groups.take rank).map List.length).sum + group.idxOf stanza)
  absent_rank : schema.contains stanza = false ↔ schema.rank? stanza = none
  absent_position : schema.contains stanza = false ↔ schema.position? stanza = none
  absent_group : schema.contains stanza = false ↔ schema.group? stanza = none
  rank_lt : ∀ place, schema.places[stanza]? = some place → place.rank < schema.groups.length

/-- A schema has groups, all of its groups have members, its canonical order goes through
them without a repetition, and whatever stanza it is asked about, it answers as a scan of
its groups would. -/
theorem answers_by_scan (schema : Schema) :
    schema.groups ≠ [] ∧ (∀ group ∈ schema.groups, group ≠ []) ∧
      schema.order = schema.groups.flatten ∧ schema.order.Nodup ∧ schema.isEmpty = false ∧
      ∀ stanza, schema.AnswersByScan stanza := by
  refine ⟨schema.groups_ne_nil, schema.group_ne_nil, schema.order_eq, schema.order_nodup, ?_, ?_⟩
  · rw [isEmpty, List.isEmpty_eq_false_iff, schema.order_eq]
    intro hflatten
    obtain ⟨group, hgroup⟩ := List.exists_mem_of_ne_nil _ schema.groups_ne_nil
    exact schema.group_ne_nil group hgroup (List.flatten_eq_nil_iff.mp hflatten group hgroup)
  · intro stanza
    refine
      { contains := contains_iff_mem
        rank := fun _ => rank?_eq_some_iff_mem
        position := fun _ => position?_eq_some_iff_getElem?
        group := fun group => ?_
        position_eq := fun _ _ => position?_of_rank?
        absent_rank := rank?_eq_none_iff.symm
        absent_position := position?_eq_none_iff.symm
        absent_group := group?_eq_none_iff.symm
        rank_lt := fun place hplace => ?_ }
    · rw [group?_eq_some_iff]
      constructor
      · rintro ⟨rank, hrank, hgroup⟩
        exact ⟨mem_of_rank? hrank hgroup, rank, hrank, hgroup⟩
      · rintro ⟨-, hgroup⟩
        exact hgroup
    · have hrank : schema.rank? stanza = some place.rank := by
        rw [rank?, hplace, Option.map_some]
      exact rank_lt_length hrank

end Schema
end CaskOrder
