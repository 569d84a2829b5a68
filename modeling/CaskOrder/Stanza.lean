import CaskOrder.Text.Utf8

/-!
# Stanzas, groups and group tables

A stanza is one keyword of a cask definition, known by its name.  Stanzas are ordered
by the UTF-8 bytes of their names, and two stanzas compare as equal only if they are
the same.

A group lists the stanzas that share one place in the canonical order, and a group
table lists groups in canonical order.  Neither is restricted here: emptiness and
repeated stanzas are looked for when a schema is built.
-/

namespace CaskOrder

/-- A keyword of a cask definition.  Names are case-sensitive and taken as they are. -/
structure Stanza where
  name : String
deriving DecidableEq, Repr

/-- Stanzas that share one place in the canonical order, in the order they were
declared. -/
abbrev Group := List Stanza

/-- Groups in canonical order. -/
abbrev GroupTable := List Group

namespace Stanza

/-- The bytes by which a stanza is ordered. -/
def key (stanza : Stanza) : List UInt8 :=
  Text.utf8 stanza.name.toList

instance : Ord Stanza where
  compare a b := compare a.key b.key

theorem compare_eq_compare_key (a b : Stanza) : compare a b = compare a.key b.key :=
  rfl

theorem key_injective {a b : Stanza} (h : a.key = b.key) : a = b := by
  have hname : a.name = b.name := String.toList_injective (Text.utf8_injective h)
  cases a
  cases b
  simpa using hname

instance : Std.TransOrd Stanza where
  eq_swap {a b} := Std.OrientedOrd.eq_swap (a := a.key) (b := b.key)
  isLE_trans {a b c} hab hbc :=
    Std.TransOrd.isLE_trans (a := a.key) (b := b.key) (c := c.key) hab hbc

instance : Std.LawfulEqOrd Stanza where
  compare_self {a} := Std.ReflOrd.compare_self (a := a.key)
  eq_of_compare h := key_injective (Std.LawfulEqOrd.eq_of_compare h)

/-- The stanzas in ascending order, repeated ones kept. -/
def sort (stanzas : List Stanza) : List Stanza :=
  stanzas.mergeSort fun a b => (compare a b).isLE

end Stanza
end CaskOrder
