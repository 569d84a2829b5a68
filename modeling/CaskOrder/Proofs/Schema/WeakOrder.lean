import CaskOrder.Proofs.Schema.Places
import CaskOrder.Schema.Cask
import CaskOrder.Schema.Verdict

/-!
# The order of stanzas

The verdicts of a schema compare ranks, so they are a strict weak order of the stanzas that
the schema contains, in which the members of one group are equivalent.  Stanzas that it does
not contain form a class of their own and are never ordered.

The main statement adds what a rank is to the two lists that the schema keeps: the verdicts
follow the groups of the table, and the canonical order never contradicts them.
-/

namespace CaskOrder

/-- The verdicts order the known stanzas strictly, up to equivalence within a group, and
nothing else. -/
structure WeaklyOrders (verdict : Stanza → Stanza → Verdict) (known : Stanza → Prop) : Prop where
  unknown_iff : ∀ a b, verdict a b = .unknown ↔ ¬known a ∨ ¬known b
  exactly_one : ∀ a b, known a → known b →
    ∃! found, found ∈ [Verdict.before, .after, .sameGroup] ∧ verdict a b = found
  before_iff_after : ∀ a b, verdict a b = .before ↔ verdict b a = .after
  before_irrefl : ∀ a, verdict a a ≠ .before
  before_trans : ∀ a b c, verdict a b = .before → verdict b c = .before → verdict a c = .before
  same_refl : ∀ a, known a → verdict a a = .sameGroup
  same_symm : ∀ a b, verdict a b = .sameGroup → verdict b a = .sameGroup
  same_trans : ∀ a b c, verdict a b = .sameGroup → verdict b c = .sameGroup →
    verdict a c = .sameGroup
  before_same : ∀ a b c, verdict a b = .before → verdict b c = .sameGroup →
    verdict a c = .before
  same_before : ∀ a b c, verdict a b = .sameGroup → verdict b c = .before →
    verdict a c = .before

/-- What stands in one list comes before all that stands in later lists. -/
theorem length_flatten_take_lt {lists : List (List α)} {items : List α} {rank later index : Nat}
    (hitems : lists[rank]? = some items) (hindex : index < items.length) (hlater : rank < later) :
    (lists.take rank).flatten.length + index < (lists.take later).flatten.length := by
  have hnext : lists.take (rank + 1) = lists.take rank ++ [items] := by
    rw [List.take_add_one, hitems, Option.toList_some]
  have hprefix : lists.take (rank + 1) <+: lists.take later :=
    List.take_prefix_take_left (by omega)
  have hle : (lists.take (rank + 1)).flatten.length ≤ (lists.take later).flatten.length :=
    (List.IsPrefix.flatten hprefix).length_le
  rw [hnext, List.flatten_append, List.length_append, List.flatten_singleton] at hle
  omega

namespace GroupTable

/-- The stanza is a member of the group with the given index. -/
def Declares (table : GroupTable) (rank : Nat) (stanza : Stanza) : Prop :=
  ∃ group, table[rank]? = some group ∧ stanza ∈ group

theorem HasPlace.position_lt {table : GroupTable} {a b : Stanza} {placeA placeB : Place}
    (ha : table.HasPlace a placeA) (hb : table.HasPlace b placeB)
    (hrank : placeA.rank < placeB.rank) : placeA.position < placeB.position := by
  obtain ⟨groupA, indexA, hgroupA, hstanzaA, hpositionA⟩ := ha
  obtain ⟨groupB, indexB, -, -, hpositionB⟩ := hb
  have hindex : indexA < groupA.length := (List.getElem?_eq_some_iff.mp hstanzaA).1
  have hlt := length_flatten_take_lt hgroupA hindex hrank
  omega

end GroupTable

namespace Schema

variable {schema : Schema} {a b : Stanza}

theorem rank?_eq_some_iff_declares {rank : Nat} :
    schema.rank? a = some rank ↔ schema.groups.Declares rank a :=
  rank?_eq_some_iff_mem

theorem rank?_eq_none_iff_not_mem : schema.rank? a = none ↔ a ∉ schema.order := by
  rw [rank?_eq_none_iff, ← contains_iff_mem, Bool.not_eq_true]

theorem position?_eq_none_iff_not_mem : schema.position? a = none ↔ a ∉ schema.order := by
  rw [position?_eq_none_iff, ← contains_iff_mem, Bool.not_eq_true]

theorem exists_rank?_of_mem (ha : a ∈ schema.order) : ∃ rank, schema.rank? a = some rank := by
  apply Option.ne_none_iff_exists'.mp
  intro hnone
  exact rank?_eq_none_iff_not_mem.mp hnone ha

theorem mem_order_of_rank? {rank : Nat} (hrank : schema.rank? a = some rank) :
    a ∈ schema.order := by
  by_contra hmem
  rw [rank?_eq_none_iff_not_mem.mpr hmem] at hrank
  contradiction

/-! ## What a verdict says about ranks -/

theorem verdict_of_ranks {ra rb : Nat} (ha : schema.rank? a = some ra)
    (hb : schema.rank? b = some rb) :
    (schema.verdict a b = .before ↔ ra < rb) ∧ (schema.verdict a b = .after ↔ rb < ra) ∧
      (schema.verdict a b = .sameGroup ↔ ra = rb) := by
  have hverdict : schema.verdict a b =
      if ra < rb then .before else if rb < ra then .after else .sameGroup := by
    rw [verdict, ha, hb]
  rw [hverdict]
  by_cases hlt : ra < rb
  · simp [hlt, Nat.le_of_lt hlt, Nat.ne_of_lt hlt]
  · by_cases hgt : rb < ra
    · simp [hlt, hgt, Nat.ne_of_gt hgt]
    · have heq : ra = rb := by omega
      simp [heq]

theorem verdict_eq_unknown_iff :
    schema.verdict a b = .unknown ↔ a ∉ schema.order ∨ b ∉ schema.order := by
  rw [← rank?_eq_none_iff_not_mem, ← rank?_eq_none_iff_not_mem, verdict]
  cases schema.rank? a with
  | none => simp
  | some ra =>
      cases schema.rank? b with
      | none => simp
      | some rb =>
          simp only [reduceCtorEq, or_self, iff_false]
          split
          · simp
          · split <;> simp

theorem ranks_of_verdict {found : Verdict} (hverdict : schema.verdict a b = found)
    (hfound : found ≠ .unknown) :
    ∃ ra rb, schema.rank? a = some ra ∧ schema.rank? b = some rb := by
  have hknown : ¬(a ∉ schema.order ∨ b ∉ schema.order) := by
    rw [← verdict_eq_unknown_iff, hverdict]
    exact hfound
  rw [not_or, not_not, not_not] at hknown
  obtain ⟨ra, ha⟩ := exists_rank?_of_mem hknown.1
  obtain ⟨rb, hb⟩ := exists_rank?_of_mem hknown.2
  exact ⟨ra, rb, ha, hb⟩

theorem verdict_eq_before_iff :
    schema.verdict a b = .before ↔
      ∃ ra rb, schema.rank? a = some ra ∧ schema.rank? b = some rb ∧ ra < rb := by
  constructor
  · intro hverdict
    obtain ⟨ra, rb, ha, hb⟩ := ranks_of_verdict hverdict (by decide)
    exact ⟨ra, rb, ha, hb, (verdict_of_ranks ha hb).1.mp hverdict⟩
  · intro hranks
    obtain ⟨ra, rb, ha, hb, hlt⟩ := hranks
    exact (verdict_of_ranks ha hb).1.mpr hlt

theorem verdict_eq_sameGroup_iff :
    schema.verdict a b = .sameGroup ↔
      ∃ rank, schema.rank? a = some rank ∧ schema.rank? b = some rank := by
  constructor
  · intro hverdict
    obtain ⟨ra, rb, ha, hb⟩ := ranks_of_verdict hverdict (by decide)
    have heq : ra = rb := (verdict_of_ranks ha hb).2.2.mp hverdict
    exact ⟨ra, ha, heq ▸ hb⟩
  · intro hranks
    obtain ⟨rank, ha, hb⟩ := hranks
    exact (verdict_of_ranks ha hb).2.2.mpr rfl

/-- Seen from the other stanza, before is after. -/
theorem verdict_before_iff_after :
    schema.verdict a b = .before ↔ schema.verdict b a = .after := by
  constructor
  · intro hverdict
    obtain ⟨ra, rb, ha, hb⟩ := ranks_of_verdict hverdict (by decide)
    exact (verdict_of_ranks hb ha).2.1.mpr ((verdict_of_ranks ha hb).1.mp hverdict)
  · intro hverdict
    obtain ⟨rb, ra, hb, ha⟩ := ranks_of_verdict hverdict (by decide)
    exact (verdict_of_ranks ha hb).1.mpr ((verdict_of_ranks hb ha).2.1.mp hverdict)

theorem verdict_exactly_one (ha : a ∈ schema.order) (hb : b ∈ schema.order) :
    ∃! found, found ∈ [Verdict.before, .after, .sameGroup] ∧ schema.verdict a b = found := by
  have hknown : schema.verdict a b ≠ .unknown := by
    rw [Ne, verdict_eq_unknown_iff]
    tauto
  refine ⟨schema.verdict a b, ⟨?_, rfl⟩, ?_⟩
  · cases hverdict : schema.verdict a b with
    | unknown => exact absurd hverdict hknown
    | before | after | sameGroup => simp
  · intro found hfound
    exact hfound.2.symm

/-! ## Laws -/

theorem verdict_before_trans {c : Stanza} (hab : schema.verdict a b = .before)
    (hbc : schema.verdict b c = .before) : schema.verdict a c = .before := by
  obtain ⟨ra, rb, ha, hb, hlt⟩ := verdict_eq_before_iff.mp hab
  obtain ⟨rb', rc, hb', hc, hlt'⟩ := verdict_eq_before_iff.mp hbc
  have heq : rb = rb' := Option.some.inj (hb.symm.trans hb')
  exact verdict_eq_before_iff.mpr ⟨ra, rc, ha, hc, by omega⟩

/-- Members of one group have the same verdicts. -/
theorem verdict_congr_of_sameGroup (hab : schema.verdict a b = .sameGroup) (c : Stanza) :
    schema.verdict a c = schema.verdict b c ∧ schema.verdict c a = schema.verdict c b := by
  obtain ⟨rank, ha, hb⟩ := verdict_eq_sameGroup_iff.mp hab
  constructor
  · rw [verdict, verdict, ha, hb]
  · rw [verdict, verdict, ha, hb]

theorem verdict_self (ha : a ∈ schema.order) : schema.verdict a a = .sameGroup := by
  obtain ⟨rank, hrank⟩ := exists_rank?_of_mem ha
  exact verdict_eq_sameGroup_iff.mpr ⟨rank, hrank, hrank⟩

theorem verdict_sameGroup_symm (hab : schema.verdict a b = .sameGroup) :
    schema.verdict b a = .sameGroup := by
  obtain ⟨rank, ha, hb⟩ := verdict_eq_sameGroup_iff.mp hab
  exact verdict_eq_sameGroup_iff.mpr ⟨rank, hb, ha⟩

theorem verdict_self_ne_before : schema.verdict a a ≠ .before := by
  intro hverdict
  obtain ⟨ra, rb, ha, hb, hlt⟩ := verdict_eq_before_iff.mp hverdict
  have heq : ra = rb := Option.some.inj (ha.symm.trans hb)
  omega

theorem weaklyOrders_verdict (schema : Schema) :
    WeaklyOrders schema.verdict (· ∈ schema.order) where
  unknown_iff _ _ := verdict_eq_unknown_iff
  exactly_one _ _ := verdict_exactly_one
  before_iff_after _ _ := verdict_before_iff_after
  before_irrefl _ := verdict_self_ne_before
  before_trans _ _ _ := verdict_before_trans
  same_refl _ := verdict_self
  same_symm _ _ := verdict_sameGroup_symm
  same_trans _ _ c hab hbc := (verdict_congr_of_sameGroup hab c).1.trans hbc
  before_same a _ _ hab hbc := (verdict_congr_of_sameGroup hbc a).2.symm.trans hab
  same_before _ _ c hab hbc := (verdict_congr_of_sameGroup hab c).1.trans hbc

/-! ## The canonical order -/

theorem hasPlace_of_rank? {rank position : Nat} (hrank : schema.rank? a = some rank)
    (hposition : schema.position? a = some position) :
    schema.groups.HasPlace a ⟨rank, position⟩ := by
  obtain ⟨other, hplace⟩ := position?_eq_some_iff.mp hposition
  have hother : schema.rank? a = some other := rank?_eq_some_iff.mpr ⟨position, hplace⟩
  have heq : rank = other := Option.some.inj (hrank.symm.trans hother)
  exact heq ▸ hplace

theorem exists_position?_of_mem (ha : a ∈ schema.order) :
    ∃ position, schema.position? a = some position := by
  obtain ⟨position, hget⟩ := List.mem_iff_getElem?.mp ha
  exact ⟨position, position?_eq_some_iff_getElem?.mpr hget⟩

theorem position_lt_of_before {p q : Nat} (hverdict : schema.verdict a b = .before)
    (ha : schema.position? a = some p) (hb : schema.position? b = some q) : p < q := by
  obtain ⟨ra, rb, hra, hrb, hlt⟩ := verdict_eq_before_iff.mp hverdict
  exact (hasPlace_of_rank? hra ha).position_lt (hasPlace_of_rank? hrb hb) hlt

theorem mem_order_of_position? {p : Nat} (ha : schema.position? a = some p) :
    a ∈ schema.order :=
  List.mem_of_getElem? (position?_eq_some_iff_getElem?.mp ha)

/-- An earlier position excludes a later group. -/
theorem verdict_of_position_lt {p q : Nat} (ha : schema.position? a = some p)
    (hb : schema.position? b = some q) (hlt : p < q) :
    schema.verdict a b = .before ∨ schema.verdict a b = .sameGroup := by
  cases hverdict : schema.verdict a b with
  | before => exact .inl rfl
  | sameGroup => exact .inr rfl
  | after =>
      -- the groups would contradict the positions
      have hgt : q < p := position_lt_of_before (verdict_before_iff_after.mpr hverdict) hb ha
      omega
  | unknown =>
      have hmem := verdict_eq_unknown_iff.mp hverdict
      have hmemA := mem_order_of_position? ha
      have hmemB := mem_order_of_position? hb
      tauto

/-- The verdicts of a schema are a strict weak order of the stanzas in it.  One stanza is
before another if and only if its group comes earlier in the table.  It then has the smaller
position in the canonical order, and of two stanzas the one with the smaller position is
before the other or in the same group. -/
theorem verdicts_follow_groups (schema : Schema) :
    WeaklyOrders schema.verdict (· ∈ schema.order) ∧
      (∀ a b, schema.verdict a b = .before ↔
        ∃ i j, schema.groups.Declares i a ∧ schema.groups.Declares j b ∧ i < j) ∧
      (∀ a b, schema.verdict a b = .before →
        ∃ p q, schema.position? a = some p ∧ schema.position? b = some q ∧ p < q) ∧
      ∀ a b p q, schema.position? a = some p → schema.position? b = some q → p < q →
        schema.verdict a b = .before ∨ schema.verdict a b = .sameGroup := by
  refine ⟨weaklyOrders_verdict schema, ?_, ?_, ?_⟩
  · intro a b
    simp only [verdict_eq_before_iff, rank?_eq_some_iff_declares]
  · intro a b hverdict
    obtain ⟨ra, rb, ha, hb, -⟩ := verdict_eq_before_iff.mp hverdict
    obtain ⟨p, hp⟩ := exists_position?_of_mem (mem_order_of_rank? ha)
    obtain ⟨q, hq⟩ := exists_position?_of_mem (mem_order_of_rank? hb)
    exact ⟨p, q, hp, hq, position_lt_of_before hverdict hp hq⟩
  · intro a b p q ha hb hlt
    exact verdict_of_position_lt ha hb hlt

theorem cask_version_before_url :
    cask.verdict ⟨"version"⟩ ⟨"url"⟩ = .before ∧
      (∃ p q, cask.position? ⟨"version"⟩ = some p ∧ cask.position? ⟨"url"⟩ = some q ∧ p < q) ∧
      cask.verdict ⟨"sha256"⟩ ⟨"url"⟩ = .before ∧
      (cask.verdict ⟨"version"⟩ ⟨"sha256"⟩ = .before ∨
        cask.verdict ⟨"version"⟩ ⟨"sha256"⟩ = .sameGroup) := by
  have hversion : cask.groups.Declares 1 ⟨"version"⟩ := ⟨_, rfl, by decide⟩
  have hsha : cask.groups.Declares 1 ⟨"sha256"⟩ := ⟨_, rfl, by decide⟩
  have hurl : cask.groups.Declares 3 ⟨"url"⟩ := ⟨_, rfl, by decide⟩
  have hverdict : cask.verdict ⟨"version"⟩ ⟨"url"⟩ = .before :=
    verdict_eq_before_iff.mpr ⟨1, 3, rank?_eq_some_iff_declares.mpr hversion,
      rank?_eq_some_iff_declares.mpr hurl, by decide⟩
  have hsame : cask.verdict ⟨"sha256"⟩ ⟨"version"⟩ = .sameGroup :=
    verdict_eq_sameGroup_iff.mpr ⟨1, rank?_eq_some_iff_declares.mpr hsha,
      rank?_eq_some_iff_declares.mpr hversion⟩
  have hposition : cask.position? ⟨"version"⟩ = some 2 :=
    position?_eq_some_iff_getElem?.mpr rfl
  have hnext : cask.position? ⟨"sha256"⟩ = some 3 :=
    position?_eq_some_iff_getElem?.mpr rfl
  obtain ⟨horders, -, hpositions, hearlier⟩ := verdicts_follow_groups cask
  exact ⟨hverdict, hpositions _ _ hverdict, horders.same_before _ _ _ hsame hverdict,
    hearlier _ _ 2 3 hposition hnext (by decide)⟩

end Schema
end CaskOrder
