import CaskOrder.Stanza
import Std.Data.TreeSet

/-!
# Defects of a group table

A group table has no defect if it has groups, each of its groups has members, and no
stanza occurs in it twice.  The table is gone through in canonical order, and the first
defect is the one that counts.
-/

namespace CaskOrder

inductive Defect where
  | repeated (stanza : Stanza)
  | emptyGroup
deriving DecidableEq, Repr

namespace Defect

def message : Defect → String
  | repeated stanza => "duplicate stanza `" ++ stanza.name ++ "` in group table"
  | emptyGroup => "empty stanza group in group table"

/-- Adds the members of a group to the stanzas that were seen before them. -/
def seeGroup (seen : Std.TreeSet Stanza) : Group → Except Defect (Std.TreeSet Stanza)
  | [] => .ok seen
  | stanza :: group =>
    if seen.contains stanza then .error (repeated stanza)
    else seeGroup (seen.insert stanza) group

def seeTable (seen : Std.TreeSet Stanza) : GroupTable → Except Defect (Std.TreeSet Stanza)
  | [] => .ok seen
  | [] :: _ => .error emptyGroup
  | group :: table =>
    match seeGroup seen group with
    | .error defect => .error defect
    | .ok seen => seeTable seen table

/-- The first defect of a table, if it has one. -/
def first? (table : GroupTable) : Option Defect :=
  if table.isEmpty then some emptyGroup
  else
    match seeTable ∅ table with
    | .error defect => some defect
    | .ok _ => none

end Defect
end CaskOrder
