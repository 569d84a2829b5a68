import CaskOrder.Proofs.Text.Utf8Order
import CaskOrder.Stanza

/-!
# The order of stanzas

Stanzas are ordered by the bytes of their names, which is the order of the codes of their
characters.  It is a total order in which only a stanza itself is equal to it, so a list has one
arrangement that is ascending.  Sorting finds it, and keeps every stanza as often as it occurs.
-/

namespace CaskOrder.Stanza

theorem compare_eq_compare_codes (a b : Stanza) :
    compare a b = compare (Text.codes a.name.toList) (Text.codes b.name.toList) :=
  Text.compare_utf8 a.name.toList b.name.toList

/-! ## A total order -/

/-- The first stanza does not come behind the second. -/
def AtMost (a b : Stanza) : Prop :=
  (compare a b).isLE = true

theorem compare_swap (a b : Stanza) : compare b a = (compare a b).swap :=
  Std.OrientedOrd.eq_swap

theorem AtMost.trans {a b c : Stanza} (hab : a.AtMost b) (hbc : b.AtMost c) : a.AtMost c :=
  Std.TransOrd.isLE_trans hab hbc

theorem AtMost.antisymm {a b : Stanza} (hab : a.AtMost b) (hba : b.AtMost a) : a = b :=
  Std.LawfulEqOrd.eq_of_compare (Std.OrientedCmp.isLE_antisymm hab hba)

theorem atMost_total (a b : Stanza) : a.AtMost b ∨ b.AtMost a := by
  unfold AtMost
  rw [compare_swap a b]
  cases compare a b <;> simp

/-! ## Sorting -/

theorem sort_perm (stanzas : List Stanza) : (sort stanzas).Perm stanzas :=
  List.mergeSort_perm stanzas _

theorem sort_ascending (stanzas : List Stanza) : (sort stanzas).Pairwise AtMost := by
  apply List.pairwise_mergeSort
  · intro a b c hab hbc
    exact AtMost.trans hab hbc
  · intro a b
    rw [Bool.or_eq_true]
    exact atMost_total a b

/-- A list has one ascending arrangement at most. -/
theorem eq_of_ascending {stanzas others : List Stanza} (hperm : stanzas.Perm others)
    (hstanzas : stanzas.Pairwise AtMost) (hothers : others.Pairwise AtMost) : stanzas = others :=
  List.Perm.eq_of_pairwise (fun _ _ _ _ => AtMost.antisymm) hstanzas hothers hperm

theorem sort_eq_of_perm {stanzas others : List Stanza} (hperm : others.Perm stanzas) :
    sort others = sort stanzas := by
  have hsorted : (sort others).Perm (sort stanzas) :=
    (sort_perm others).trans (hperm.trans (sort_perm stanzas).symm)
  exact eq_of_ascending hsorted (sort_ascending others) (sort_ascending stanzas)

/-- Stanzas are compared by the bytes of their names, and equally by the codes of their
characters.  This is a total order, and equal stanzas are the same.  Sorting rearranges a list
into ascending order, and into the same list for every rearrangement of it. -/
theorem ordered_by_codes :
    (∀ a b : Stanza, compare a b = compare a.key b.key ∧
      compare a b = compare (Text.codes a.name.toList) (Text.codes b.name.toList)) ∧
      (∀ a b : Stanza, compare a b = .eq ↔ a = b) ∧
      (∀ a b : Stanza, compare b a = (compare a b).swap) ∧
      (∀ a b c : Stanza, a.AtMost b → b.AtMost c → a.AtMost c) ∧
      (∀ a b : Stanza, a.AtMost b ∨ b.AtMost a) ∧
      ∀ stanzas, (sort stanzas).Perm stanzas ∧ (sort stanzas).Pairwise AtMost ∧
        ∀ others, others.Perm stanzas → sort others = sort stanzas := by
  refine ⟨?_, ?_, compare_swap, ?_, atMost_total, ?_⟩
  · intro a b
    exact ⟨compare_eq_compare_key a b, compare_eq_compare_codes a b⟩
  · intro a b
    exact Std.LawfulEqOrd.compare_eq_iff_eq
  · intro a b c hab hbc
    exact hab.trans hbc
  · intro stanzas
    refine ⟨sort_perm stanzas, sort_ascending stanzas, ?_⟩
    intro others hperm
    exact sort_eq_of_perm hperm

/-- A character beyond U+FFFF comes last, although the first of its UTF-16 units is below
U+E000. -/
theorem beyond_units_sorted_last :
    (⟨"\ue000"⟩ : Stanza).AtMost ⟨"\uffff"⟩ ∧ (⟨"\uffff"⟩ : Stanza).AtMost ⟨"😀"⟩ ∧
      (⟨"\ue000"⟩ : Stanza).AtMost ⟨"😀"⟩ ∧
      sort [⟨"😀"⟩, ⟨"a"⟩, ⟨"\ue000"⟩, ⟨"a"⟩] = sort [⟨"a"⟩, ⟨"a"⟩, ⟨"\ue000"⟩, ⟨"😀"⟩] := by
  have hfirst : (⟨"\ue000"⟩ : Stanza).AtMost ⟨"\uffff"⟩ := by
    rw [AtMost]
    decide +kernel
  have hsecond : (⟨"\uffff"⟩ : Stanza).AtMost ⟨"😀"⟩ := by
    rw [AtMost]
    decide +kernel
  have hperm : [⟨"😀"⟩, ⟨"a"⟩, ⟨"\ue000"⟩, ⟨"a"⟩].Perm
      [(⟨"a"⟩ : Stanza), ⟨"a"⟩, ⟨"\ue000"⟩, ⟨"😀"⟩] := by
    decide +kernel
  exact ⟨hfirst, hsecond, ordered_by_codes.2.2.2.1 _ _ _ hfirst hsecond,
    (ordered_by_codes.2.2.2.2.2 _).2.2 _ hperm⟩

end CaskOrder.Stanza
