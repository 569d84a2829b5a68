import CaskOrder.Log
import CaskOrder.Schema.Defect
import Std.Data.TreeMap

/-!
# Schemas

A schema is a group table without defects, together with two things derived from it: the
canonical order, in which the groups stand one after the other, and an index that holds
the place of every stanza.  A place consists of the rank, which is the index of the
group, and the position, which is the index in the canonical order.  Questions about a
stanza are answered from the index.
-/

namespace CaskOrder

structure Place where
  rank : Nat
  position : Nat
deriving DecidableEq, Repr

namespace GroupTable

/-- The members of a table in canonical order, each with the index of its group. -/
def ranked (table : GroupTable) : List (Stanza × Nat) :=
  table.zipIdx.flatMap fun (group, rank) => group.map (·, rank)

/-- The members of a table in canonical order, each with its place. -/
def places (table : GroupTable) : List (Stanza × Place) :=
  (ranked table).zipIdx.map fun ((stanza, rank), position) => (stanza, ⟨rank, position⟩)

end GroupTable

structure Schema where
  groups : GroupTable
  order : List Stanza
  places : Std.TreeMap Stanza Place
  sound : Defect.first? groups = none
  order_eq : order = groups.flatten
  places_eq : places = .ofList (GroupTable.places groups)

namespace Schema

def ofTable (table : GroupTable) (sound : Defect.first? table = none) : Schema where
  groups := table
  order := table.flatten
  places := .ofList (GroupTable.places table)
  sound := sound
  order_eq := rfl
  places_eq := rfl

/-- The schema of a table, unless the table has a defect. -/
def build (table : GroupTable) : Logged (Except Defect Schema) :=
  match h : Defect.first? table with
  | some defect => .silent (.error defect)
  | none => ⟨.ok (ofTable table h), [.schemaBuilt table.length table.flatten.length]⟩

/-- One schema that holds the groups of the given ones, unless they overlap. -/
def join (schemas : List Schema) : Logged (Except Defect Schema) :=
  build (schemas.flatMap groups)

instance : BEq Schema where
  beq a b := a.groups == b.groups && a.order == b.order && a.places == b.places

def groupCount (schema : Schema) : Nat :=
  schema.groups.length

def size (schema : Schema) : Nat :=
  schema.order.length

def isEmpty (schema : Schema) : Bool :=
  schema.order.isEmpty

def contains (schema : Schema) (stanza : Stanza) : Bool :=
  schema.places.contains stanza

def rank? (schema : Schema) (stanza : Stanza) : Option Nat :=
  schema.places[stanza]?.map Place.rank

def position? (schema : Schema) (stanza : Stanza) : Option Nat :=
  schema.places[stanza]?.map Place.position

def group? (schema : Schema) (stanza : Stanza) : Option Group :=
  schema.places[stanza]?.bind fun place => schema.groups[place.rank]?

end Schema
end CaskOrder
