import CaskOrder.Json.Choice
import CaskOrder.Schema.Basic

/-!
# Verdicts

Two stanzas of a schema are ordered by the ranks of their groups.  Members of one group
may stand in any order, and nothing is said about a stanza that the schema does not
contain.
-/

namespace CaskOrder

inductive Verdict where
  | before
  | after
  | sameGroup
  | unknown
deriving DecidableEq, Repr

namespace Verdict

def all : List Verdict :=
  [before, after, sameGroup, unknown]

def name : Verdict → String
  | before => "before"
  | after => "after"
  | sameGroup => "same_group"
  | unknown => "unknown"

def reader : Json.Reader Verdict :=
  Json.choice (all.map fun verdict => (verdict.name, verdict))

end Verdict

namespace Schema

/-- Where the first stanza belongs, seen from the second. -/
def verdict (schema : Schema) (a b : Stanza) : Verdict :=
  match schema.rank? a, schema.rank? b with
  | some ra, some rb => if ra < rb then .before else if rb < ra then .after else .sameGroup
  | _, _ => .unknown

end Schema
end CaskOrder
