import CaskOrder.Json.Document
import CaskOrder.Json.Record
import CaskOrder.Json.Value
import CaskOrder.OnSystem.BlockNames
import CaskOrder.Schema.Basic

/-!
# Configuration

A group table is configured as a record whose field `groups` lists the groups, and the
releases of a platform as a record whose field `versions` lists their symbols and may be
absent.  A schema is written as a group table with its canonical order beside it, which
is passed over when the table is read again.
-/

namespace CaskOrder

def Stanza.reader : Json.Reader Stanza :=
  Json.string.map Stanza.mk

def Group.reader : Json.Reader Group :=
  Json.listOf Stanza.reader

def GroupTable.form : Json.RecordForm GroupTable where
  title := "SchemaConfig"
  field := "groups"
  value := Json.listOf Group.reader
  default? := none

def GroupTable.reader : Json.Reader GroupTable :=
  Json.record GroupTable.form

def platformForm : Json.RecordForm (List String) where
  title := "PlatformConfig"
  field := "versions"
  value := Json.listOf Json.string
  default? := some []

def platformReader : Json.Reader (List String) :=
  Json.record platformForm

/-- What can be wrong with a configured schema: its text, or the table in it. -/
inductive ConfigError where
  | unreadable (error : Json.ParseError)
  | defective (defect : Defect)
deriving Repr

def ConfigError.message : ConfigError → String
  | unreadable error => error.message
  | defective defect => "invalid schema: " ++ defect.message

def Schema.ofJson (json : String) : Logged (Except ConfigError Schema) :=
  .attempt ((GroupTable.reader.parse json).mapError .unreadable) fun table =>
    (Schema.build table).mapError .defective

def BlockNames.ofJson (json : String) : Logged (Except Json.ParseError BlockNames) :=
  .attempt (platformReader.parse json) fun symbols => (BlockNames.ofReleases symbols).map .ok

def Stanza.toValue (stanza : Stanza) : Json.Value String :=
  .string stanza.name

def Group.toValue (group : Group) : Json.Value String :=
  .strings (group.map Stanza.name)

theorem Group.toValue_eq (group : Group) : group.toValue = .list (group.map Stanza.toValue) := by
  rw [toValue, Json.Value.strings, List.map_map]
  rfl

def Schema.toValue (schema : Schema) : Json.Value String :=
  .object [("groups", .list (schema.groups.map Group.toValue)),
    ("order", Group.toValue schema.order)]

def BlockNames.toValue (set : BlockNames) : Json.Value String :=
  .strings set.names

end CaskOrder
