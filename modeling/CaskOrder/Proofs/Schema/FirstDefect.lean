import CaskOrder.Schema.Basic
import Mathlib.Data.List.Dedup
import Mathlib.Tactic
import Std.Data.TreeSet.Lemmas

/-!
# The first defect of a table

A table is scanned in canonical order, and the scan remembers the stanzas that it has
passed.  The invariant below says that these are the stanzas before the place that the
scan has reached, and that none of them has occurred twice so far.

The main statement is that building a schema decides every table: it succeeds on the
tables without a defect, and otherwise it names the defect that comes first.
-/

namespace CaskOrder

theorem eq_take_append_of_getElem? {items : List α} {index : Nat} {item : α}
    (hget : items[index]? = some item) :
    items = items.take index ++ item :: items.drop (index + 1) := by
  obtain ⟨hlt, rfl⟩ := List.getElem?_eq_some_iff.mp hget
  rw [List.getElem_cons_drop hlt, List.take_append_drop]

theorem not_nodup_of_mem_take {before items : List α} {index : Nat} {item : α}
    (hget : items[index]? = some item) (hmem : item ∈ before ++ items.take index) :
    ¬(before ++ items).Nodup := by
  intro hnodup
  rw [eq_take_append_of_getElem? hget, ← List.append_assoc] at hnodup
  exact List.disjoint_of_nodup_append hnodup hmem List.mem_cons_self

namespace GroupTable

/-- Every group up to the place has members, no stanza before it has occurred twice, and
the stanza at it is one of those before it. -/
def RepeatsAt (table : GroupTable) (rank index : Nat) (stanza : Stanza) : Prop :=
  ∃ group, table[rank]? = some group ∧ group[index]? = some stanza ∧
    (∀ earlier ∈ table.take (rank + 1), earlier ≠ []) ∧
    ((table.take rank).flatten ++ group.take index).Nodup ∧
    stanza ∈ (table.take rank).flatten ++ group.take index

/-- The group has no members, and there is no defect in the groups before it. -/
def EmptyAt (table : GroupTable) (rank : Nat) : Prop :=
  table[rank]? = some [] ∧ (∀ earlier ∈ table.take rank, earlier ≠ []) ∧
    (table.take rank).flatten.Nodup

theorem RepeatsAt.not_nodup {table : GroupTable} {rank index : Nat} {stanza : Stanza}
    (hrepeats : table.RepeatsAt rank index stanza) : ¬table.flatten.Nodup := by
  obtain ⟨group, hgroup, hget, -, -, hmem⟩ := hrepeats
  have hsplit : table.flatten =
      ((table.take rank).flatten ++ group) ++ (table.drop (rank + 1)).flatten := by
    conv_lhs => rw [eq_take_append_of_getElem? hgroup]
    simp
  intro hnodup
  rw [hsplit] at hnodup
  exact not_nodup_of_mem_take hget hmem (List.Nodup.of_append_left hnodup)

theorem EmptyAt.nil_mem {table : GroupTable} {rank : Nat} (hempty : table.EmptyAt rank) :
    [] ∈ table :=
  List.mem_of_getElem? hempty.1

end GroupTable

namespace Defect

/-- The scan has passed exactly the given stanzas, each of them once. -/
structure Passed (seen : Std.TreeSet Stanza) (before : List Stanza) : Prop where
  mem_iff : ∀ stanza, stanza ∈ seen ↔ stanza ∈ before
  nodup : before.Nodup

theorem passed_nil : Passed ∅ [] where
  mem_iff := by simp
  nodup := List.nodup_nil

theorem Passed.insert {seen : Std.TreeSet Stanza} {before : List Stanza}
    (hpassed : Passed seen before) {stanza : Stanza} (hnew : stanza ∉ seen) :
    Passed (seen.insert stanza) (before ++ [stanza]) where
  mem_iff other := by
    rw [Std.TreeSet.mem_insert, hpassed.mem_iff, List.mem_append, List.mem_singleton,
      Std.LawfulEqOrd.compare_eq_iff_eq]
    tauto
  nodup := by
    have hfresh : stanza ∉ before := fun hmem => hnew ((hpassed.mem_iff stanza).mpr hmem)
    refine List.nodup_append'.mpr ⟨hpassed.nodup, List.nodup_singleton stanza, ?_⟩
    exact List.disjoint_singleton.mpr hfresh

/-! ## The scan of a group -/

theorem seeGroup_append (seen : Std.TreeSet Stanza) (front back : Group) :
    seeGroup seen (front ++ back) =
      match seeGroup seen front with
      | .error defect => .error defect
      | .ok seen => seeGroup seen back := by
  induction front generalizing seen with
  | nil => rfl
  | cons stanza front ih =>
      rw [List.cons_append, seeGroup, seeGroup]
      split
      · rfl
      · exact ih (seen.insert stanza)

theorem seeGroup_passed {seen after : Std.TreeSet Stanza} {before group : List Stanza}
    (hpassed : Passed seen before) (hscan : seeGroup seen group = .ok after) :
    Passed after (before ++ group) := by
  induction group generalizing seen before with
  | nil =>
      cases hscan
      simpa using hpassed
  | cons stanza group ih =>
      rw [seeGroup] at hscan
      by_cases hmem : seen.contains stanza = true
      · simp [hmem] at hscan
      · rw [if_neg hmem] at hscan
        simpa using ih (hpassed.insert hmem) hscan

/-- A group that is not passed holds a stanza that has occurred before, and the part of
the group in front of that stanza is passed. -/
theorem seeGroup_error {seen : Std.TreeSet Stanza} {before group : List Stanza}
    {defect : Defect} (hpassed : Passed seen before)
    (hscan : seeGroup seen group = .error defect) :
    ∃ stanza index, defect = .repeated stanza ∧ group[index]? = some stanza ∧
      (before ++ group.take index).Nodup ∧ stanza ∈ before ++ group.take index := by
  induction group generalizing seen before with
  | nil => simp [seeGroup] at hscan
  | cons stanza group ih =>
      rw [seeGroup] at hscan
      by_cases hmem : seen.contains stanza = true
      · rw [if_pos hmem] at hscan
        cases hscan
        refine ⟨stanza, 0, rfl, rfl, by simpa using hpassed.nodup, ?_⟩
        have hseen : stanza ∈ seen := hmem
        simpa using (hpassed.mem_iff stanza).mp hseen
      · rw [if_neg hmem] at hscan
        obtain ⟨other, index, hdefect, hget, hnodup, hother⟩ := ih (hpassed.insert hmem) hscan
        exact ⟨other, index + 1, hdefect, hget, by simpa using hnodup, by simpa using hother⟩

theorem seeGroup_ok {seen : Std.TreeSet Stanza} {before group : List Stanza}
    (hpassed : Passed seen before) (hnodup : (before ++ group).Nodup) :
    ∃ after, seeGroup seen group = .ok after ∧ Passed after (before ++ group) := by
  cases hscan : seeGroup seen group with
  | ok after => exact ⟨after, rfl, seeGroup_passed hpassed hscan⟩
  | error defect =>
      obtain ⟨stanza, index, -, hget, -, hmem⟩ := seeGroup_error hpassed hscan
      exact absurd hnodup (not_nodup_of_mem_take hget hmem)

/-! ## The scan of a table -/

theorem seeTable_cons (seen : Std.TreeSet Stanza) {group : Group} (hgroup : group ≠ [])
    (table : GroupTable) :
    seeTable seen (group :: table) =
      match seeGroup seen group with
      | .error defect => .error defect
      | .ok seen => seeTable seen table := by
  cases group with
  | nil => exact absurd rfl hgroup
  | cons stanza group => rfl

theorem seeTable_append (seen : Std.TreeSet Stanza) (front back : GroupTable) :
    seeTable seen (front ++ back) =
      match seeTable seen front with
      | .error defect => .error defect
      | .ok seen => seeTable seen back := by
  induction front generalizing seen with
  | nil => rfl
  | cons group front ih =>
      rw [List.cons_append]
      by_cases hgroup : group = []
      · subst group
        rfl
      · rw [seeTable_cons seen hgroup, seeTable_cons seen hgroup]
        cases seeGroup seen group with
        | error defect => rfl
        | ok after => exact ih after

theorem seeTable_passed {seen after : Std.TreeSet Stanza} {before : List Stanza}
    {table : GroupTable} (hpassed : Passed seen before)
    (hscan : seeTable seen table = .ok after) :
    (∀ group ∈ table, group ≠ []) ∧ Passed after (before ++ table.flatten) := by
  induction table generalizing seen before with
  | nil =>
      cases hscan
      exact ⟨by simp, by simpa using hpassed⟩
  | cons group table ih =>
      by_cases hgroup : group = []
      · subst group
        cases hscan
      · rw [seeTable_cons seen hgroup] at hscan
        cases hsee : seeGroup seen group with
        | error defect => simp [hsee] at hscan
        | ok middle =>
            rw [hsee] at hscan
            obtain ⟨hgroups, hafter⟩ := ih (seeGroup_passed hpassed hsee) hscan
            exact ⟨List.forall_mem_cons.mpr ⟨hgroup, hgroups⟩, by simpa using hafter⟩

/-- A scan that comes to a table behind groups without a defect, and fails there, fails
at the first defect of both parts together. -/
theorem seeTable_error {seen : Std.TreeSet Stanza} {front table : GroupTable} {defect : Defect}
    (hpassed : Passed seen front.flatten) (hfront : ∀ group ∈ front, group ≠ [])
    (hscan : seeTable seen table = .error defect) :
    (∃ stanza rank index, defect = .repeated stanza ∧
        (front ++ table).RepeatsAt rank index stanza) ∨
      defect = .emptyGroup ∧ ∃ rank, (front ++ table).EmptyAt rank := by
  induction table generalizing seen front with
  | nil => simp [seeTable] at hscan
  | cons group table ih =>
      have hget : (front ++ group :: table)[front.length]? = some group := by simp
      have htake : (front ++ group :: table).take front.length = front := by simp
      have hupTo : (front ++ group :: table).take (front.length + 1) = front ++ [group] := by
        simp [List.take_append]
      by_cases hgroup : group = []
      · subst group
        cases hscan
        refine .inr ⟨rfl, front.length, hget, ?_, ?_⟩
        · rwa [htake]
        · rw [htake]
          exact hpassed.nodup
      · have hfront' : ∀ earlier ∈ front ++ [group], earlier ≠ [] := by
          intro earlier hmem
          rcases List.mem_append.mp hmem with hmem | hmem
          · exact hfront earlier hmem
          · exact List.mem_singleton.mp hmem ▸ hgroup
        rw [seeTable_cons seen hgroup] at hscan
        cases hsee : seeGroup seen group with
        | error found =>
            rw [hsee] at hscan
            cases hscan
            obtain ⟨stanza, index, hdefect, hstanza, hnodup, hmem⟩ := seeGroup_error hpassed hsee
            refine .inl ⟨stanza, front.length, index, hdefect, group, hget, hstanza, ?_, ?_, ?_⟩
            · rwa [hupTo]
            · rwa [htake]
            · rwa [htake]
        | ok middle =>
            rw [hsee] at hscan
            have hmiddle : Passed middle (front ++ [group]).flatten := by
              simpa using seeGroup_passed hpassed hsee
            simpa using ih hmiddle hfront' hscan

theorem seeTable_ok {table : GroupTable} (hgroups : ∀ group ∈ table, group ≠ [])
    (hnodup : table.flatten.Nodup) :
    ∃ after, seeTable ∅ table = .ok after ∧ Passed after table.flatten := by
  cases hscan : seeTable ∅ table with
  | ok after => exact ⟨after, rfl, (seeTable_passed passed_nil hscan).2⟩
  | error defect =>
      have hstart : Passed ∅ (List.flatten ([] : GroupTable)) := passed_nil
      rcases seeTable_error hstart (by simp) hscan with
        ⟨stanza, rank, index, -, hrepeats⟩ | ⟨-, rank, hempty⟩
      · exact absurd hnodup hrepeats.not_nodup
      · exact absurd rfl (hgroups [] hempty.nil_mem)

/-! ## The first defect -/

theorem first?_eq_none_iff {table : GroupTable} :
    first? table = none ↔
      table ≠ [] ∧ (∀ group ∈ table, group ≠ []) ∧ table.flatten.Nodup := by
  cases table with
  | nil => simp [first?]
  | cons group table =>
      rw [first?, if_neg (by simp)]
      constructor
      · intro hfirst
        cases hscan : seeTable ∅ (group :: table) with
        | error defect => simp [hscan] at hfirst
        | ok after =>
            obtain ⟨hgroups, hafter⟩ := seeTable_passed passed_nil hscan
            exact ⟨by simp, hgroups, by simpa using hafter.nodup⟩
      · rintro ⟨-, hgroups, hnodup⟩
        obtain ⟨after, hscan, -⟩ := seeTable_ok hgroups hnodup
        rw [hscan]

theorem first?_eq_some_iff {table : GroupTable} (htable : table ≠ []) {defect : Defect} :
    first? table = some defect ↔ seeTable ∅ table = .error defect := by
  rw [first?, if_neg (by simpa using htable)]
  cases seeTable ∅ table <;> simp

theorem first?_eq_repeated_iff {table : GroupTable} {stanza : Stanza} :
    first? table = some (.repeated stanza) ↔
      ∃ rank index, table.RepeatsAt rank index stanza := by
  constructor
  · intro hfirst
    have htable : table ≠ [] := by
      rintro rfl
      simp [first?] at hfirst
    rw [first?_eq_some_iff htable] at hfirst
    have hstart : Passed ∅ (List.flatten ([] : GroupTable)) := passed_nil
    rcases seeTable_error hstart (by simp) hfirst with
      ⟨other, rank, index, hdefect, hrepeats⟩ | ⟨hdefect, -⟩
    · cases hdefect
      exact ⟨rank, index, hrepeats⟩
    · cases hdefect
  · rintro ⟨rank, index, group, hgroup, hget, hgroups, hnodup, hmem⟩
    have htable : table ≠ [] := by
      rintro rfl
      simp at hgroup
    have htake : table.take (rank + 1) = table.take rank ++ [group] := by
      rw [List.take_add_one, hgroup, Option.toList_some]
    rw [htake] at hgroups
    have hne : group ≠ [] := hgroups group (by simp)
    obtain ⟨middle, hfront, hmiddle⟩ :=
      seeTable_ok (fun earlier h => hgroups earlier (List.mem_append_left [group] h))
        (List.Nodup.of_append_left hnodup)
    obtain ⟨after, hgroupFront, hafter⟩ := seeGroup_ok hmiddle hnodup
    have hseen : after.contains stanza = true := (hafter.mem_iff stanza).mpr hmem
    rw [first?_eq_some_iff htable, eq_take_append_of_getElem? hgroup, seeTable_append, hfront]
    simp only
    rw [seeTable_cons middle hne, eq_take_append_of_getElem? hget, seeGroup_append, hgroupFront]
    simp only
    rw [seeGroup, if_pos hseen]

theorem first?_eq_emptyGroup_iff {table : GroupTable} :
    first? table = some .emptyGroup ↔ table = [] ∨ ∃ rank, table.EmptyAt rank := by
  constructor
  · intro hfirst
    by_cases htable : table = []
    · exact .inl htable
    · rw [first?_eq_some_iff htable] at hfirst
      have hstart : Passed ∅ (List.flatten ([] : GroupTable)) := passed_nil
      rcases seeTable_error hstart (by simp) hfirst with
        ⟨stanza, rank, index, hdefect, -⟩ | ⟨-, hempty⟩
      · cases hdefect
      · exact .inr hempty
  · rintro (rfl | ⟨rank, hget, hgroups, hnodup⟩)
    · rfl
    · have htable : table ≠ [] := by
        rintro rfl
        simp at hget
      obtain ⟨after, hfront, -⟩ := seeTable_ok hgroups hnodup
      rw [first?_eq_some_iff htable, eq_take_append_of_getElem? hget, seeTable_append, hfront]
      rfl

end Defect

/-! ## Building -/

namespace Schema

theorem build_of_defect {table : GroupTable} {defect : Defect}
    (hfirst : Defect.first? table = some defect) : build table = .silent (.error defect) := by
  rw [build]
  split
  · next found hfound =>
    rw [hfirst, Option.some.injEq] at hfound
    rw [hfound]
  · next hsound =>
    rw [hfirst] at hsound
    cases hsound

theorem build_of_sound {table : GroupTable} (hsound : Defect.first? table = none) :
    build table =
      ⟨.ok (ofTable table hsound), [.schemaBuilt table.length table.flatten.length]⟩ := by
  rw [build]
  split
  · next defect hdefect =>
    rw [hsound] at hdefect
    cases hdefect
  · rfl

theorem build_eq_error_iff {table : GroupTable} {defect : Defect} :
    (build table).value = .error defect ↔ Defect.first? table = some defect := by
  cases hfirst : Defect.first? table with
  | none => simp [build_of_sound hfirst]
  | some found => simp [build_of_defect hfirst]

theorem build_ok_iff {table : GroupTable} :
    (∃ schema, (build table).value = .ok schema) ↔ Defect.first? table = none := by
  cases hfirst : Defect.first? table with
  | none => simp [build_of_sound hfirst]
  | some defect => simp [build_of_defect hfirst]

theorem build_failsSilently (table : GroupTable) : (build table).FailsSilently := by
  intro defect hbuild
  rw [build_of_defect (build_eq_error_iff.mp hbuild), Logged.events_silent]

theorem groups_of_build {table : GroupTable} {schema : Schema}
    (hbuild : (build table).value = .ok schema) : schema.groups = table := by
  rw [build_of_sound (build_ok_iff.mp ⟨schema, hbuild⟩), Except.ok.injEq] at hbuild
  rw [← hbuild]
  rfl

/-- Every table is either built, with its own groups and one event that counts them and
their stanzas, or refused for the defect that comes first in it, and then nothing is
logged. -/
theorem build_decides (table : GroupTable) :
    ((∃ schema, (build table).value = .ok schema) ↔
        table ≠ [] ∧ (∀ group ∈ table, group ≠ []) ∧ table.flatten.Nodup) ∧
      (∀ schema, (build table).value = .ok schema →
        schema.groups = table ∧
          ∃ event, (build table).events = [event] ∧
            event = .schemaBuilt table.length table.flatten.dedup.length ∧
            event.level = .debug ∧ event.message = "built stanza schema") ∧
      (∀ defect, (build table).value = .error defect → (build table).events = []) ∧
      (∀ stanza, (build table).value = .error (.repeated stanza) ↔
        ∃ rank index, table.RepeatsAt rank index stanza) ∧
      ((build table).value = .error .emptyGroup ↔ table = [] ∨ ∃ rank, table.EmptyAt rank) := by
  refine ⟨?_, ?_, build_failsSilently table, ?_, ?_⟩
  · rw [build_ok_iff, Defect.first?_eq_none_iff]
  · intro schema hbuild
    have hsound := build_ok_iff.mp ⟨schema, hbuild⟩
    have hnodup := (Defect.first?_eq_none_iff.mp hsound).2.2
    refine ⟨groups_of_build hbuild, .schemaBuilt table.length table.flatten.length, ?_, ?_, rfl,
      rfl⟩
    · rw [build_of_sound hsound]
    · rw [hnodup.dedup]
  · intro stanza
    rw [build_eq_error_iff, Defect.first?_eq_repeated_iff]
  · rw [build_eq_error_iff, Defect.first?_eq_emptyGroup_iff]

end Schema
end CaskOrder
