import CaskOrder.Proofs.Schema.WeakOrder

/-!
# Leaving out stanzas

A table is restricted to some stanzas by taking the others out of its groups and dropping the
groups in which nothing is left.  The groups that stay are then counted anew: a group has as
many groups before it as the restriction of these has.

This count grows strictly from one group that stays to the next, so the verdicts on the
stanzas that are kept do not change.  The restriction of a table without defects has none
either, unless nothing is kept at all.
-/

namespace CaskOrder

namespace GroupTable

/-- The table without the stanzas that are not kept, and without groups that become empty. -/
def restrict (table : GroupTable) (keep : Stanza → Bool) : GroupTable :=
  (table.map (List.filter keep)).filter fun group => !group.isEmpty

variable {table : GroupTable} {keep : Stanza → Bool} {rank later : Nat} {a b : Stanza}

theorem restrict_append (front back : GroupTable) (keep : Stanza → Bool) :
    restrict (front ++ back) keep = restrict front keep ++ restrict back keep := by
  simp only [restrict, List.map_append, List.filter_append]

theorem restrict_cons {group : Group} (hmem : a ∈ group) (hkept : keep a = true)
    (table : GroupTable) :
    restrict (group :: table) keep = group.filter keep :: restrict table keep := by
  have hne : group.filter keep ≠ [] := List.ne_nil_of_mem (List.mem_filter.mpr ⟨hmem, hkept⟩)
  simp [restrict, hne]

theorem flatten_restrict (table : GroupTable) (keep : Stanza → Bool) :
    (table.restrict keep).flatten = table.flatten.filter keep := by
  rw [restrict, List.flatten_filter_not_isEmpty, List.filter_flatten]

theorem ne_nil_of_mem_restrict {group : Group} (hmem : group ∈ table.restrict keep) :
    group ≠ [] := by
  simpa using (List.mem_filter.mp hmem).2

theorem sound_restrict_iff (hsound : Defect.first? table = none) :
    Defect.first? (table.restrict keep) = none ↔
      ∃ stanza ∈ table.flatten, keep stanza = true := by
  have hnodup : (table.restrict keep).flatten.Nodup := by
    rw [flatten_restrict]
    exact (Defect.first?_eq_none_iff.mp hsound).2.2.filter keep
  constructor
  · intro hrestricted
    rcases List.exists_mem_of_ne_nil _ (Defect.first?_eq_none_iff.mp hrestricted).1 with
      ⟨group, hgroup⟩
    rcases List.exists_mem_of_ne_nil _ (ne_nil_of_mem_restrict hgroup) with ⟨stanza, hmem⟩
    have hstanza : stanza ∈ (table.restrict keep).flatten :=
      List.mem_flatten.mpr ⟨group, hgroup, hmem⟩
    rw [flatten_restrict] at hstanza
    exact ⟨stanza, List.mem_filter.mp hstanza⟩
  · intro hkept
    rcases hkept with ⟨stanza, hstanza⟩
    refine Defect.first?_eq_none_iff.mpr ⟨?_, fun _ => ne_nil_of_mem_restrict, hnodup⟩
    intro hnil
    have hmem : stanza ∈ (table.restrict keep).flatten := by
      rw [flatten_restrict]
      exact List.mem_filter.mpr hstanza
    rw [hnil] at hmem
    contradiction

/-! ## Counting the groups anew -/

/-- The groups up to one that stays, apart from the groups before it. -/
theorem restrict_eq_append_of_declares (ha : table.Declares rank a) (hkept : keep a = true) :
    ∃ group rest, a ∈ group ∧
      table.restrict keep = restrict (table.take rank) keep ++ group :: rest := by
  rcases ha with ⟨group, hgroup, hmem⟩
  refine ⟨group.filter keep, restrict (table.drop (rank + 1)) keep,
    List.mem_filter.mpr ⟨hmem, hkept⟩, ?_⟩
  conv_lhs =>
    rw [eq_take_append_of_getElem? hgroup, restrict_append, restrict_cons hmem hkept]

theorem declares_restrict (ha : table.Declares rank a) (hkept : keep a = true) :
    (table.restrict keep).Declares (restrict (table.take rank) keep).length a := by
  rcases restrict_eq_append_of_declares ha hkept with ⟨group, rest, hmem, hsplit⟩
  refine ⟨group, ?_, hmem⟩
  rw [hsplit]
  simp

theorem declares_take (ha : table.Declares rank a) (hlt : rank < later) :
    Declares (table.take later) rank a := by
  rcases ha with ⟨group, hgroup, hmem⟩
  refine ⟨group, ?_, hmem⟩
  rw [List.getElem?_take_of_lt hlt]
  exact hgroup

theorem length_restrict_take_lt (ha : table.Declares rank a) (hkept : keep a = true)
    (hlt : rank < later) :
    (restrict (table.take rank) keep).length < (restrict (table.take later) keep).length := by
  rcases restrict_eq_append_of_declares (declares_take ha hlt) hkept with
    ⟨group, rest, -, hsplit⟩
  rw [hsplit, List.take_take, Nat.min_eq_left (Nat.le_of_lt hlt), List.length_append,
    List.length_cons]
  omega

/-- Groups that stay keep their order. -/
theorem length_restrict_take_lt_iff (ha : table.Declares rank a) (hb : table.Declares later b)
    (hkeptA : keep a = true) (hkeptB : keep b = true) :
    (restrict (table.take rank) keep).length < (restrict (table.take later) keep).length ↔
      rank < later := by
  constructor
  · intro hlt
    by_contra hge
    rcases Nat.eq_or_lt_of_le (Nat.le_of_not_lt hge) with heq | hgt
    · rw [heq] at hlt
      exact Nat.lt_irrefl _ hlt
    · exact Nat.lt_asymm hlt (length_restrict_take_lt hb hkeptB hgt)
  · exact length_restrict_take_lt ha hkeptA

end GroupTable

namespace Schema

open GroupTable (restrict)

/-- The schema is what is left of the other one if only some stanzas are kept: it gives the
same verdicts on these, and counts the groups and stanzas that stay. -/
structure Restricts (restricted schema : Schema) (keep : Stanza → Bool) : Prop where
  order_eq : restricted.order = schema.order.filter keep
  contains_eq : ∀ a, restricted.contains a = (schema.contains a && keep a)
  rank_eq : ∀ a, keep a = true →
    restricted.rank? a =
      (schema.rank? a).map fun rank => (restrict (schema.groups.take rank) keep).length
  position_eq : ∀ a, keep a = true →
    restricted.position? a =
      (schema.position? a).map fun position => ((schema.order.take position).filter keep).length
  verdict_eq : ∀ a b, keep a = true → keep b = true →
    restricted.verdict a b = schema.verdict a b

variable {restricted schema : Schema} {keep : Stanza → Bool} {a b : Stanza}

theorem contains_restricted (horder : restricted.order = schema.order.filter keep) (a : Stanza) :
    restricted.contains a = (schema.contains a && keep a) := by
  rw [Bool.eq_iff_iff, Bool.and_eq_true, contains_iff_mem, contains_iff_mem, horder,
    List.mem_filter]

theorem rank?_restricted (hgroups : restricted.groups = schema.groups.restrict keep)
    (horder : restricted.order = schema.order.filter keep) (hkept : keep a = true) :
    restricted.rank? a =
      (schema.rank? a).map fun rank => (restrict (schema.groups.take rank) keep).length := by
  cases hrank : schema.rank? a with
  | none =>
      rw [Option.map_none, rank?_eq_none_iff_not_mem, horder]
      intro hmem
      exact rank?_eq_none_iff_not_mem.mp hrank (List.mem_of_mem_filter hmem)
  | some rank =>
      have hdeclares := GroupTable.declares_restrict (rank?_eq_some_iff_declares.mp hrank) hkept
      rw [← hgroups] at hdeclares
      exact rank?_eq_some_iff_declares.mpr hdeclares

theorem position?_restricted (horder : restricted.order = schema.order.filter keep)
    (hkept : keep a = true) :
    restricted.position? a =
      (schema.position? a).map fun position =>
        ((schema.order.take position).filter keep).length := by
  cases hposition : schema.position? a with
  | none =>
      rw [Option.map_none, position?_eq_none_iff_not_mem, horder]
      intro hmem
      exact position?_eq_none_iff_not_mem.mp hposition (List.mem_of_mem_filter hmem)
  | some position =>
      have hget := position?_eq_some_iff_getElem?.mp hposition
      have hfilter : restricted.order =
          (schema.order.take position).filter keep ++
            a :: (schema.order.drop (position + 1)).filter keep := by
        conv_lhs =>
          rw [horder, eq_take_append_of_getElem? hget, List.filter_append,
            List.filter_cons_of_pos hkept]
      rw [Option.map_some, position?_eq_some_iff_getElem?, hfilter]
      simp

theorem verdict_restricted (hgroups : restricted.groups = schema.groups.restrict keep)
    (horder : restricted.order = schema.order.filter keep) (hkeptA : keep a = true)
    (hkeptB : keep b = true) : restricted.verdict a b = schema.verdict a b := by
  rw [verdict, verdict, rank?_restricted hgroups horder hkeptA,
    rank?_restricted hgroups horder hkeptB]
  cases ha : schema.rank? a with
  | none => rfl
  | some ra =>
      cases hb : schema.rank? b with
      | none => rfl
      | some rb =>
          have hra := rank?_eq_some_iff_declares.mp ha
          have hrb := rank?_eq_some_iff_declares.mp hb
          have hbefore := GroupTable.length_restrict_take_lt_iff hra hrb hkeptA hkeptB
          have hafter := GroupTable.length_restrict_take_lt_iff hrb hra hkeptB hkeptA
          simp only [Option.map_some, hbefore, hafter]

theorem restricts_of_groups (hgroups : restricted.groups = schema.groups.restrict keep) :
    Restricts restricted schema keep := by
  have horder : restricted.order = schema.order.filter keep := by
    rw [restricted.order_eq, schema.order_eq, hgroups, GroupTable.flatten_restrict]
  exact
    { order_eq := horder
      contains_eq := contains_restricted horder
      rank_eq := fun _ hkept => rank?_restricted hgroups horder hkept
      position_eq := fun _ hkept => position?_restricted horder hkept
      verdict_eq := fun _ _ hkeptA hkeptB => verdict_restricted hgroups horder hkeptA hkeptB }

/-- The table of a schema can be restricted to any stanzas, as long as at least one of them is
in the schema.  What is built from it contains the stanzas that are kept, in the same order and
with the same verdicts. -/
theorem build_restrict_keeps_verdicts (schema : Schema) (keep : Stanza → Bool) :
    ((∃ restricted, (build (schema.groups.restrict keep)).value = .ok restricted) ↔
        ∃ stanza ∈ schema.order, keep stanza = true) ∧
      ∀ restricted, (build (schema.groups.restrict keep)).value = .ok restricted →
        Restricts restricted schema keep := by
  constructor
  · rw [build_ok_iff, GroupTable.sound_restrict_iff schema.sound, schema.order_eq]
  · intro restricted hbuild
    exact restricts_of_groups (groups_of_build hbuild)

/-- Of the fourth and the seventh group of a cask one stanza each is kept, and these groups
become the first and the second. -/
theorem build_cask_url_and_app :
    let keep := fun stanza : Stanza => stanza.name == "app" || stanza.name == "url"
    ∃ restricted, (build (cask.groups.restrict keep)).value = .ok restricted ∧
      restricted.order = [⟨"url"⟩, ⟨"app"⟩] ∧ restricted.contains ⟨"name"⟩ = false ∧
      cask.rank? ⟨"app"⟩ = some 6 ∧ restricted.rank? ⟨"app"⟩ = some 1 ∧
      restricted.verdict ⟨"url"⟩ ⟨"app"⟩ = .before := by
  intro keep
  rcases build_restrict_keeps_verdicts cask keep with ⟨hbuildable, hrestricts⟩
  rcases hbuildable.mpr ⟨⟨"url"⟩, by decide +kernel, rfl⟩ with ⟨restricted, hbuild⟩
  have hrestricted := hrestricts restricted hbuild
  have horder : restricted.order = [⟨"url"⟩, ⟨"app"⟩] := by
    rw [hrestricted.order_eq]
    decide +kernel
  have hurl : cask.rank? ⟨"url"⟩ = some 3 :=
    rank?_eq_some_iff_declares.mpr ⟨_, rfl, by decide⟩
  have happ : cask.rank? ⟨"app"⟩ = some 6 :=
    rank?_eq_some_iff_declares.mpr ⟨_, rfl, by decide⟩
  refine ⟨restricted, hbuild, horder, ?_, happ, ?_, ?_⟩
  · rw [hrestricted.contains_eq]
    exact Bool.and_false _
  · rw [hrestricted.rank_eq _ rfl, happ]
    rfl
  · rw [hrestricted.verdict_eq _ _ rfl rfl]
    exact (verdict_of_ranks hurl happ).1.mpr (by decide)

end Schema
end CaskOrder
