import CaskOrder.Proofs.Config.Platform
import CaskOrder.Proofs.Config.Reports
import CaskOrder.Proofs.Json.AbsentFields

/-!
# Reports as configurations

A report is an object, so it could be handed on as a configuration.  Its members are none of the
fields that are looked for, and their values are passed over whatever they are, down to the
messages of errors.

So a report is no group table: the groups are missing, which is found out behind its last
character.  As a platform it is as good as an empty object, since releases may be left out.
-/

namespace CaskOrder

open Json (Value)

/-- The text is read as an object that configures neither groups nor releases. -/
structure ConfiguresNothing (text : String) : Prop where
  lacks_groups : ∃ error, (Schema.ofJson text).value = .error (.unreadable error) ∧
    error.cause.category = .wrongData ∧ error.cause.text = "missing field `groups`" ∧
    error.position = ⟨1, text.utf8ByteSize⟩
  lacks_releases : BlockNames.ofJson text = (BlockNames.ofReleases []).map .ok

theorem configuresNothing_of_members {members : List (String × Value String)}
    (hwritable : (Value.object members).Writable)
    (hmembers : ∀ member ∈ members, member.1 ≠ "groups" ∧ member.1 ≠ "versions") :
    ConfiguresNothing (Value.object members).text where
  lacks_groups := by
    have hparse := Json.parse_of_no_default GroupTable.form_reads hwritable
      (fun member hmember => (hmembers member hmember).1) rfl
    exact ⟨_, Schema.ofJson_unreadable_iff.mpr hparse, rfl, rfl, rfl⟩
  lacks_releases := by
    have hparse := Json.parse_of_default platformForm_reads hwritable
      (fun member hmember => (hmembers member hmember).2) rfl
    exact BlockNames.ofJson_of_parse hparse

namespace Report

theorem configuresNothing {report : Report} (hdata : ∀ data ∈ report.data?, data.Writable) :
    ConfiguresNothing report.text := by
  rcases report with ⟨success, data?, error?⟩
  apply configuresNothing_of_members (toValue_writable hdata)
  cases data? <;> cases error? <;> simp

theorem configuresNothing_ofData {data : Value String} (hdata : data.Writable) :
    ConfiguresNothing (ofData data).text := by
  have hsome : ∀ found ∈ some data, found.Writable := by
    simpa using hdata
  exact configuresNothing hsome

theorem configuresNothing_ofError (message : String) :
    ConfiguresNothing (ofError message).text := by
  have hnone : ∀ found ∈ (none : Option (Value String)), found.Writable := by
    simp
  exact configuresNothing hnone

/-- No report is taken for a group table, whether it tells of a success or of an error, and each
of them is taken for a platform without releases. -/
theorem reports_configure_nothing :
    (∀ json, ConfiguresNothing (buildSchema json).text) ∧
      (∀ json, ConfiguresNothing (deriveNames json).text) ∧
      ∀ schema, ConfiguresNothing (ofSchema schema).text := by
  refine ⟨?_, ?_, ?_⟩
  · intro json
    unfold buildSchema
    cases (Schema.ofJson json).value with
    | ok schema => exact configuresNothing_ofData schema.toValue_writable
    | error error => exact configuresNothing_ofError error.message
  · intro json
    unfold deriveNames
    cases (BlockNames.ofJson json).value with
    | ok set => exact configuresNothing_ofData (strings_writable set.names)
    | error error => exact configuresNothing_ofError error.message
  · intro schema
    exact configuresNothing_ofData schema.toValue_writable

end Report
end CaskOrder
