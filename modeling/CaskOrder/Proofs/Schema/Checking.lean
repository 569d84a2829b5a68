import CaskOrder.Proofs.Schema.WeakOrder

/-!
# Checking the order of a cask

The stanzas of a cask are in order if none of them stands behind one that it should come
before.  A checker need not compare all pairs: among stanzas that the schema contains, not to
be after another one is transitive, so that it is enough to compare neighbours.

A cask is put in order by sorting its stanzas by their positions.  If no stanza occurs twice,
there is only one way to do this, and the result is the part of the canonical order that the
cask uses.
-/

namespace CaskOrder

namespace Schema

/-- No stanza of the list is after a later one. -/
def InOrder (schema : Schema) (stanzas : List Stanza) : Prop :=
  stanzas.Pairwise fun a b => schema.verdict a b ≠ .after

/-- No stanza of the list is after the next one. -/
def NeighboursInOrder (schema : Schema) (stanzas : List Stanza) : Prop :=
  stanzas.IsChain fun a b => schema.verdict a b ≠ .after

/-- Both stanzas have a position, and that of the first is not greater. -/
def PositionLE (schema : Schema) (a b : Stanza) : Prop :=
  ∃ p q, schema.position? a = some p ∧ schema.position? b = some q ∧ p ≤ q

/-- Both stanzas have a position, and that of the first is smaller. -/
def PositionLT (schema : Schema) (a b : Stanza) : Prop :=
  ∃ p q, schema.position? a = some p ∧ schema.position? b = some q ∧ p < q

variable {schema : Schema} {stanzas sorted : List Stanza} {a b c : Stanza}

/-! ## Neighbours -/

theorem verdict_ne_after_trans (hb : b ∈ schema.order) (hab : schema.verdict a b ≠ .after)
    (hbc : schema.verdict b c ≠ .after) : schema.verdict a c ≠ .after := by
  intro hac
  rcases exists_rank?_of_mem hb with ⟨rb, hrb⟩
  rcases verdict_eq_before_iff.mp (verdict_before_iff_after.mpr hac) with
    ⟨rc, ra, hrc, hra, hlt⟩
  have hle : ra ≤ rb := by
    by_contra hgt
    exact hab ((verdict_of_ranks hra hrb).2.1.mpr (by omega))
  have hle' : rb ≤ rc := by
    by_contra hgt
    exact hbc ((verdict_of_ranks hrb hrc).2.1.mpr (by omega))
  omega

theorem inOrder_of_neighbours (hknown : ∀ stanza ∈ stanzas, stanza ∈ schema.order)
    (hneighbours : schema.NeighboursInOrder stanzas) : schema.InOrder stanzas := by
  induction stanzas with
  | nil => exact List.Pairwise.nil
  | cons first stanzas ih =>
      cases stanzas with
      | nil => exact List.pairwise_singleton _ first
      | cons next stanzas =>
          rcases List.isChain_cons_cons.mp hneighbours with ⟨hnext, hchain⟩
          rcases List.forall_mem_cons.mp hknown with ⟨-, hrest⟩
          have hinOrder : schema.InOrder (next :: stanzas) := ih hrest hchain
          -- the next stanza lies between the first one and all the others
          apply List.Pairwise.cons _ hinOrder
          intro other hother
          rcases List.mem_cons.mp hother with rfl | hother
          · exact hnext
          · have hbehind : schema.verdict next other ≠ .after :=
              (List.pairwise_cons.mp hinOrder).1 other hother
            exact verdict_ne_after_trans (hrest next List.mem_cons_self) hnext hbehind

/-! ## Positions -/

theorem PositionLE.verdict_ne_after (h : schema.PositionLE a b) :
    schema.verdict a b ≠ .after := by
  rcases h with ⟨p, q, hp, hq, hle⟩
  intro hafter
  have hlt : q < p := position_lt_of_before (verdict_before_iff_after.mpr hafter) hq hp
  omega

theorem inOrder_of_positions (hsorted : sorted.Pairwise schema.PositionLE) :
    schema.InOrder sorted :=
  hsorted.imp PositionLE.verdict_ne_after

theorem PositionLT.le (h : schema.PositionLT a b) : schema.PositionLE a b := by
  rcases h with ⟨p, q, hp, hq, hlt⟩
  exact ⟨p, q, hp, hq, Nat.le_of_lt hlt⟩

theorem PositionLT.asymm (hab : schema.PositionLT a b) : ¬schema.PositionLT b a := by
  intro hba
  rcases hab with ⟨p, q, hp, hq, hlt⟩
  rcases hba with ⟨q', p', hq', hp', hlt'⟩
  have hpeq : p = p' := Option.some.inj (hp.symm.trans hp')
  have hqeq : q = q' := Option.some.inj (hq.symm.trans hq')
  omega

/-- Positions grow along the canonical order. -/
theorem order_pairwise_positionLT (schema : Schema) :
    schema.order.Pairwise schema.PositionLT := by
  apply List.pairwise_iff_getElem.mpr
  intro i j hi hj hlt
  exact ⟨i, j, position?_eq_some_iff_getElem?.mpr (List.getElem?_eq_getElem hi),
    position?_eq_some_iff_getElem?.mpr (List.getElem?_eq_getElem hj), hlt⟩

theorem position?_eq_idxOf (ha : a ∈ schema.order) :
    schema.position? a = some (schema.order.idxOf a) :=
  position?_eq_some_iff_getElem?.mpr (List.getElem?_idxOf ha)

/-- Stanzas that the schema contains can be sorted by their positions. -/
theorem exists_perm_pairwise_positionLE (hknown : ∀ stanza ∈ stanzas, stanza ∈ schema.order) :
    ∃ sorted : List Stanza, sorted.Perm stanzas ∧ sorted.Pairwise schema.PositionLE := by
  let le (a b : Stanza) : Bool := decide (schema.order.idxOf a ≤ schema.order.idxOf b)
  have hperm : (stanzas.mergeSort le).Perm stanzas := List.mergeSort_perm stanzas le
  have hsorted : (stanzas.mergeSort le).Pairwise fun a b => le a b = true := by
    apply List.pairwise_mergeSort
    · intro a b c hab hbc
      simp only [le, decide_eq_true_eq] at hab hbc ⊢
      omega
    · intro a b
      simp only [le, Bool.or_eq_true, decide_eq_true_eq]
      omega
  refine ⟨stanzas.mergeSort le, hperm, hsorted.imp_of_mem ?_⟩
  intro a b ha hb hle
  have hmemA : a ∈ schema.order := hknown a (hperm.mem_iff.mp ha)
  have hmemB : b ∈ schema.order := hknown b (hperm.mem_iff.mp hb)
  exact ⟨_, _, position?_eq_idxOf hmemA, position?_eq_idxOf hmemB, of_decide_eq_true hle⟩

theorem filter_order_perm (hknown : ∀ stanza ∈ stanzas, stanza ∈ schema.order)
    (hnodup : stanzas.Nodup) : (schema.order.filter (· ∈ stanzas)).Perm stanzas := by
  apply (List.perm_ext_iff_of_nodup (schema.order_nodup.filter _) hnodup).mpr
  intro stanza
  rw [List.mem_filter, decide_eq_true_eq]
  exact ⟨And.right, fun hmem => ⟨hknown stanza hmem, hmem⟩⟩

theorem eq_filter_order_iff (hknown : ∀ stanza ∈ stanzas, stanza ∈ schema.order)
    (hnodup : stanzas.Nodup) :
    sorted.Perm stanzas ∧ sorted.Pairwise schema.PositionLT ↔
      sorted = schema.order.filter (· ∈ stanzas) := by
  have hperm := filter_order_perm hknown hnodup
  have hascends : (schema.order.filter (· ∈ stanzas)).Pairwise schema.PositionLT :=
    schema.order_pairwise_positionLT.filter _
  constructor
  · intro h
    rcases h with ⟨hsorted, hpositions⟩
    apply List.Perm.eq_of_pairwise _ hpositions hascends (hsorted.trans hperm.symm)
    intro a b _ _ hab hba
    exact absurd hba hab.asymm
  · intro heq
    rw [heq]
    exact ⟨hperm, hascends⟩

/-- Stanzas that the schema contains are in order as soon as neighbours are.  They can be
sorted by their positions, and are then in order.  If none of them is repeated, the only list
with strictly growing positions is what the canonical order keeps of them. -/
theorem neighbours_and_positions_keep_order (schema : Schema) (stanzas : List Stanza)
    (hknown : ∀ stanza ∈ stanzas, schema.contains stanza = true) :
    (schema.NeighboursInOrder stanzas ↔ schema.InOrder stanzas) ∧
      (∃ sorted : List Stanza, sorted.Perm stanzas ∧ sorted.Pairwise schema.PositionLE) ∧
      (∀ sorted : List Stanza, sorted.Perm stanzas → sorted.Pairwise schema.PositionLE →
        schema.InOrder sorted) ∧
      (stanzas.Nodup → ∀ sorted : List Stanza,
        (sorted.Perm stanzas ∧ sorted.Pairwise schema.PositionLT) ↔
          sorted = schema.order.filter (· ∈ stanzas)) := by
  have hmem : ∀ stanza ∈ stanzas, stanza ∈ schema.order := by
    intro stanza hstanza
    exact contains_iff_mem.mp (hknown stanza hstanza)
  refine ⟨⟨inOrder_of_neighbours hmem, List.Pairwise.isChain⟩,
    exists_perm_pairwise_positionLE hmem, ?_, ?_⟩
  · intro sorted _ hsorted
    exact inOrder_of_positions hsorted
  · intro hnodup sorted
    exact eq_filter_order_iff hmem hnodup

/-- The members of a group may be exchanged, but only one of the lists follows the canonical
order. -/
theorem cask_url_behind_version :
    let stanzas : List Stanza := [⟨"sha256"⟩, ⟨"version"⟩, ⟨"url"⟩]
    let sorted : List Stanza := [⟨"version"⟩, ⟨"sha256"⟩, ⟨"url"⟩]
    cask.NeighboursInOrder stanzas ∧ cask.InOrder stanzas ∧
      sorted.Pairwise cask.PositionLE ∧ cask.InOrder sorted ∧ stanzas.Nodup ∧
      cask.order.filter (· ∈ stanzas) = sorted ∧ sorted.Pairwise cask.PositionLT := by
  intro stanzas sorted
  have hknown : ∀ stanza ∈ stanzas, cask.contains stanza = true := by
    have hmem : ∀ stanza ∈ stanzas, stanza ∈ cask.order := by
      decide +kernel
    intro stanza hstanza
    exact contains_iff_mem.mpr (hmem stanza hstanza)
  have hneighbours : cask.NeighboursInOrder stanzas := by
    have hsha : cask.rank? ⟨"sha256"⟩ = some 1 :=
      rank?_eq_some_iff_declares.mpr ⟨_, rfl, by decide⟩
    have hversion : cask.rank? ⟨"version"⟩ = some 1 :=
      rank?_eq_some_iff_declares.mpr ⟨_, rfl, by decide⟩
    have hurl : cask.rank? ⟨"url"⟩ = some 3 :=
      rank?_eq_some_iff_declares.mpr ⟨_, rfl, by decide⟩
    apply List.IsChain.cons_cons (mt (verdict_of_ranks hsha hversion).2.1.mp (by decide))
    exact .cons_cons (mt (verdict_of_ranks hversion hurl).2.1.mp (by decide)) (.singleton _)
  have hfilter : sorted = cask.order.filter (· ∈ stanzas) := by
    decide +kernel
  have hnodup : stanzas.Nodup := by
    decide +kernel
  rcases neighbours_and_positions_keep_order cask stanzas hknown with
    ⟨hchecked, -, hpositions, hunique⟩
  rcases (hunique hnodup sorted).mpr hfilter with ⟨hperm, hstrict⟩
  have hsorted : sorted.Pairwise cask.PositionLE := hstrict.imp PositionLT.le
  exact ⟨hneighbours, hchecked.mp hneighbours, hsorted, hpositions sorted hperm hsorted, hnodup,
    hfilter.symm, hstrict⟩

/-- An unknown stanza between two others hides that they are not in order. -/
example :
    let schema := ofTable [[⟨"version"⟩], [⟨"url"⟩]] (by decide +kernel)
    schema.verdict ⟨"url"⟩ ⟨"bottle"⟩ ≠ .after ∧ schema.verdict ⟨"bottle"⟩ ⟨"version"⟩ ≠ .after ∧
      schema.verdict ⟨"url"⟩ ⟨"version"⟩ = .after := by
  decide +kernel

end Schema
end CaskOrder
