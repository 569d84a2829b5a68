import CaskOrder.Log
import CaskOrder.OnSystem.Target
import Std.Data.TreeMap

/-!
# Block names

Block names are derived from a list of targets, one for each of them and in the same
order.  A name that was derived from several targets leads back to the first one, and
every repetition is logged.
-/

namespace CaskOrder

/-- Enters names at ascending indices, except those that are there already, and lists
these. -/
def enterNames (lookup : Std.TreeMap String Nat) (index : Nat) :
    List String → Std.TreeMap String Nat × List String
  | [] => (lookup, [])
  | name :: names =>
    if lookup.contains name then
      let (lookup, repeated) := enterNames lookup (index + 1) names
      (lookup, name :: repeated)
    else enterNames (lookup.insert name index) (index + 1) names

structure BlockNames where
  targets : List Target
  names : List String
  lookup : Std.TreeMap String Nat
  names_eq : names = targets.map Target.blockName
  lookup_eq : lookup = (enterNames ∅ 0 names).1

namespace BlockNames

def ofTargets (targets : List Target) : Logged BlockNames :=
  let names := targets.map Target.blockName
  let entered := enterNames ∅ 0 names
  { value := ⟨targets, names, entered.1, rfl, rfl⟩
    events := entered.2.map .repeatedName ++ [.namesDerived targets.length] }

/-- The names of the blocks for both architectures and the given releases. -/
def ofReleases (symbols : List String) : Logged BlockNames :=
  ofTargets (Target.withReleases symbols)

/-- The names of all targets of the given sets. -/
def join (sets : List BlockNames) : Logged BlockNames :=
  ofTargets (sets.flatMap targets)

instance : BEq BlockNames where
  beq a b := a.names == b.names && a.targets == b.targets && a.lookup == b.lookup

def size (set : BlockNames) : Nat :=
  set.names.length

def isEmpty (set : BlockNames) : Bool :=
  set.names.isEmpty

def contains (set : BlockNames) (name : String) : Bool :=
  set.lookup.contains name

/-- The first target with the given block name. -/
def target? (set : BlockNames) (name : String) : Option Target :=
  set.lookup[name]?.bind fun index => set.targets[index]?

end BlockNames
end CaskOrder
