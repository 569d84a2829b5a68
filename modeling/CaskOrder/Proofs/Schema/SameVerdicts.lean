import CaskOrder.Proofs.Schema.WeakOrder

/-!
# Schemas with the same verdicts

A verdict compares two ranks, so schemas that give every stanza the same rank agree on all
verdicts.  The converse holds because no group of a schema is empty: below every rank there
are stanzas of all lower ranks, one before the other, and a schema with the same verdicts has
to find room for them.  Ranks therefore cannot fall on the way from one schema to the other,
nor on the way back.

The main statement is that the verdicts determine a schema up to the order inside its groups.
-/

namespace CaskOrder

namespace GroupTable

/-- The tables have equally many groups, and groups with the same index have the same members,
in whatever order. -/
structure SameMembers (table other : GroupTable) : Prop where
  length_eq : table.length = other.length
  mem_iff : ∀ (rank : Nat) (group otherGroup : Group), table[rank]? = some group →
    other[rank]? = some otherGroup → ∀ stanza, stanza ∈ group ↔ stanza ∈ otherGroup

variable {table other : GroupTable}

theorem SameMembers.symm (hsame : table.SameMembers other) : other.SameMembers table where
  length_eq := hsame.length_eq.symm
  mem_iff rank group otherGroup hgroup hother stanza :=
    (hsame.mem_iff rank otherGroup group hother hgroup stanza).symm

theorem SameMembers.declares (hsame : table.SameMembers other) {rank : Nat} {stanza : Stanza}
    (hdeclares : table.Declares rank stanza) : other.Declares rank stanza := by
  rcases hdeclares with ⟨group, hgroup, hmem⟩
  have hlt : rank < table.length := (List.getElem?_eq_some_iff.mp hgroup).1
  rw [hsame.length_eq] at hlt
  have hother : other[rank]? = some other[rank] := List.getElem?_eq_getElem hlt
  exact ⟨other[rank], hother, (hsame.mem_iff rank group _ hgroup hother stanza).mp hmem⟩

theorem SameMembers.declares_iff (hsame : table.SameMembers other) (rank : Nat)
    (stanza : Stanza) : table.Declares rank stanza ↔ other.Declares rank stanza :=
  ⟨hsame.declares, hsame.symm.declares⟩

end GroupTable

namespace Schema

variable {schema other : Schema}

/-! ## From ranks to verdicts -/

theorem rank?_eq_of_sameMembers (hsame : schema.groups.SameMembers other.groups)
    (stanza : Stanza) : schema.rank? stanza = other.rank? stanza := by
  apply Option.ext
  intro rank
  rw [rank?_eq_some_iff_declares, rank?_eq_some_iff_declares]
  exact hsame.declares_iff rank stanza

theorem verdict_eq_of_ranks (hranks : ∀ stanza, schema.rank? stanza = other.rank? stanza)
    (a b : Stanza) : schema.verdict a b = other.verdict a b := by
  rw [verdict, verdict, hranks a, hranks b]

theorem contains_eq_isSome_rank? (stanza : Stanza) :
    schema.contains stanza = (schema.rank? stanza).isSome := by
  rw [contains, rank?, Option.isSome_map, Std.TreeMap.contains_eq_isSome_getElem?]

theorem contains_eq_of_ranks (hranks : ∀ stanza, schema.rank? stanza = other.rank? stanza)
    (stanza : Stanza) : schema.contains stanza = other.contains stanza := by
  rw [contains_eq_isSome_rank?, contains_eq_isSome_rank?, hranks]

/-! ## From verdicts to ranks -/

/-- Every rank below the number of groups is taken, since no group is empty. -/
theorem exists_rank?_eq {rank : Nat} (hlt : rank < schema.groups.length) :
    ∃ stanza, schema.rank? stanza = some rank := by
  have hgroup : schema.groups[rank]? = some schema.groups[rank] := List.getElem?_eq_getElem hlt
  have hne : schema.groups[rank] ≠ [] := schema.group_ne_nil _ (List.mem_of_getElem? hgroup)
  rcases List.exists_mem_of_ne_nil _ hne with ⟨stanza, hmem⟩
  exact ⟨stanza, rank?_eq_some_iff_declares.mpr ⟨_, hgroup, hmem⟩⟩

theorem mem_order_iff_of_verdicts (hverdicts : ∀ a b, schema.verdict a b = other.verdict a b)
    (stanza : Stanza) : stanza ∈ schema.order ↔ stanza ∈ other.order := by
  have hunknown : schema.verdict stanza stanza = .unknown ↔
      other.verdict stanza stanza = .unknown := by
    rw [hverdicts]
  simpa [verdict_eq_unknown_iff, not_iff_not] using hunknown

/-- Ranks do not fall where the verdicts are the same. -/
theorem rank_le_of_verdicts (hverdicts : ∀ a b, schema.verdict a b = other.verdict a b)
    {stanza : Stanza} {rank otherRank : Nat} (hrank : schema.rank? stanza = some rank)
    (hother : other.rank? stanza = some otherRank) : rank ≤ otherRank := by
  -- a stanza of the rank before stands before this one in both schemas
  induction rank generalizing stanza otherRank with
  | zero => exact Nat.zero_le otherRank
  | succ rank ih =>
      have hlt : rank < schema.groups.length := Nat.lt_of_succ_lt (rank_lt_length hrank)
      rcases exists_rank?_eq hlt with ⟨previous, hprevious⟩
      have hbefore : other.verdict previous stanza = .before := by
        rw [← hverdicts]
        exact (verdict_of_ranks hprevious hrank).1.mpr (Nat.lt_succ_self rank)
      rcases verdict_eq_before_iff.mp hbefore with
        ⟨previousRank, stanzaRank, hpreviousRank, hstanzaRank, hranks⟩
      have heq : stanzaRank = otherRank := Option.some.inj (hstanzaRank.symm.trans hother)
      have hle : rank ≤ previousRank := ih hprevious hpreviousRank
      omega

theorem rank?_eq_of_verdicts (hverdicts : ∀ a b, schema.verdict a b = other.verdict a b)
    (stanza : Stanza) : schema.rank? stanza = other.rank? stanza := by
  have hmem := mem_order_iff_of_verdicts hverdicts stanza
  by_cases hknown : stanza ∈ schema.order
  · rcases exists_rank?_of_mem hknown with ⟨rank, hrank⟩
    rcases exists_rank?_of_mem (hmem.mp hknown) with ⟨otherRank, hother⟩
    have hle : rank ≤ otherRank := rank_le_of_verdicts hverdicts hrank hother
    have hge : otherRank ≤ rank :=
      rank_le_of_verdicts (fun a b => (hverdicts a b).symm) hother hrank
    rw [hrank, hother, Nat.le_antisymm hle hge]
  · rw [rank?_eq_none_iff_not_mem.mpr hknown, rank?_eq_none_iff_not_mem.mpr (mt hmem.mpr hknown)]

theorem groupCount_le_of_ranks (hranks : ∀ stanza, schema.rank? stanza = other.rank? stanza) :
    schema.groups.length ≤ other.groups.length := by
  by_contra hgt
  rcases exists_rank?_eq (Nat.lt_of_not_le hgt) with ⟨stanza, hrank⟩
  rw [hranks] at hrank
  exact Nat.lt_irrefl _ (rank_lt_length hrank)

theorem mem_iff_rank?_eq {rank : Nat} {group : Group}
    (hgroup : schema.groups[rank]? = some group) (stanza : Stanza) :
    stanza ∈ group ↔ schema.rank? stanza = some rank := by
  constructor
  · intro hmem
    exact rank?_eq_some_iff_declares.mpr ⟨group, hgroup, hmem⟩
  · intro hrank
    exact mem_of_rank? hrank hgroup

theorem sameMembers_of_ranks (hranks : ∀ stanza, schema.rank? stanza = other.rank? stanza) :
    schema.groups.SameMembers other.groups where
  length_eq := Nat.le_antisymm (groupCount_le_of_ranks hranks)
    (groupCount_le_of_ranks fun stanza => (hranks stanza).symm)
  mem_iff rank group otherGroup hgroup hother stanza := by
    rw [mem_iff_rank?_eq hgroup, mem_iff_rank?_eq hother, hranks]

/-- Two schemas give the same verdicts if and only if they have equally many groups and each
group has the same members in both.  They then contain the same stanzas, with the same
ranks. -/
theorem same_verdicts_iff_same_members (schema other : Schema) :
    ((∀ a b, schema.verdict a b = other.verdict a b) ↔
        schema.groups.SameMembers other.groups) ∧
      (schema.groups.SameMembers other.groups → ∀ stanza,
        schema.contains stanza = other.contains stanza ∧
          schema.rank? stanza = other.rank? stanza) := by
  constructor
  · constructor
    · intro hverdicts
      exact sameMembers_of_ranks (rank?_eq_of_verdicts hverdicts)
    · intro hsame
      exact verdict_eq_of_ranks (rank?_eq_of_sameMembers hsame)
  · intro hsame stanza
    have hranks := rank?_eq_of_sameMembers hsame
    exact ⟨contains_eq_of_ranks hranks stanza, hranks stanza⟩

/-- Listing the members of every group backwards gives another schema with the same answers. -/
theorem cask_backwards_in_groups :
    let backwards := ofTable (GroupTable.cask.map List.reverse) (by decide +kernel)
    backwards.order ≠ cask.order ∧ cask.groups.SameMembers backwards.groups ∧
      (∀ a b, cask.verdict a b = backwards.verdict a b) ∧
      ∀ stanza, cask.contains stanza = backwards.contains stanza ∧
        cask.rank? stanza = backwards.rank? stanza := by
  intro backwards
  have hsame : cask.groups.SameMembers backwards.groups := by
    constructor
    · exact (List.length_map List.reverse).symm
    · intro rank group otherGroup hgroup hother stanza
      have hreverse : backwards.groups[rank]? = some group.reverse := by
        change (cask.groups.map List.reverse)[rank]? = some group.reverse
        rw [List.getElem?_map, hgroup, Option.map_some]
      have heq : group.reverse = otherGroup := Option.some.inj (hreverse.symm.trans hother)
      rw [← heq, List.mem_reverse]
  rcases same_verdicts_iff_same_members cask backwards with ⟨hverdicts, hanswers⟩
  exact ⟨by decide +kernel, hsame, hverdicts.mpr hsame, hanswers hsame⟩

end Schema
end CaskOrder
