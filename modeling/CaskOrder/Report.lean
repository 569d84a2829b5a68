import CaskOrder.Config

/-!
# Reports

A report is a JSON object on one line.  It says whether something was successful, and
holds the outcome or the message of an error.
-/

namespace CaskOrder

structure Report where
  success : Bool
  data? : Option (Json.Value String)
  error? : Option String

namespace Report

/-- The members of a report.  What it does not hold is left out. -/
def toValue (report : Report) : Json.Value String :=
  .object (("success", .bool report.success)
    :: (report.data?.map ("data", ·)).toList
    ++ (report.error?.map ("error", .string ·)).toList)

def text (report : Report) : String :=
  report.toValue.text

def ofData (data : Json.Value String) : Report :=
  ⟨true, some data, none⟩

def ofError (message : String) : Report :=
  ⟨false, none, some message⟩

def ofSchema (schema : Schema) : Report :=
  ofData schema.toValue

/-- The report on building a configured schema. -/
def buildSchema (json : String) : Report :=
  match (Schema.ofJson json).value with
  | .ok schema => ofSchema schema
  | .error error => ofError error.message

/-- The report on deriving the block names of a configured platform. -/
def deriveNames (json : String) : Report :=
  match (BlockNames.ofJson json).value with
  | .ok set => ofData set.toValue
  | .error error => ofError error.message

end Report
end CaskOrder
