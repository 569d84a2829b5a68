import CaskOrder.Proofs.Config.Reload
import CaskOrder.Proofs.Json.CutValues

/-!
# Exports that are cut off

The reader of group tables needs an exported schema to its last character, also where it passes
over the canonical order.  So an export that is cut anywhere is reported as incomplete, at the
cut, and is never taken for another table or for a text that is wrong otherwise.
-/

namespace CaskOrder

open Json (NeedsAll)

theorem Stanza.needsAll_reader (stanza : Stanza) :
    NeedsAll Stanza.reader.read stanza.toValue.write stanza :=
  (Json.needsAll_string stanza.name).andThen_ok fun _ => rfl

theorem Group.needsAll_reader (group : Group) :
    NeedsAll Group.reader.read group.toValue.write group := by
  rw [Group.toValue_eq]
  exact Json.needsAll_listOf Stanza.toValue_writable Stanza.needsAll_reader group

theorem Schema.needsAll_export (schema : Schema) :
    NeedsAll GroupTable.reader.read schema.toValue.write schema.groups := by
  have hgroups := Json.needsAll_listOf Group.toValue_writable Group.needsAll_reader schema.groups
  have horder := Json.needsAll_skipValue_strings (schema.order.map Stanza.name)
  have hname : "order" ≠ GroupTable.form.field := by decide
  apply Json.needsAll_record hgroups
  intro member hmember
  rw [List.mem_singleton] at hmember
  rw [hmember]
  exact ⟨hname, horder⟩

/-- Whatever is left of an exported schema that is cut off, possibly nothing, is not loaded: the
error is that the text is incomplete, on the first line and behind its last byte. -/
theorem Schema.cut_export_incomplete (schema : Schema) {front back : String}
    (htext : front ++ back = schema.toValue.text) (hback : back ≠ "") :
    ∃ error, (Schema.ofJson front).value = .error (.unreadable error) ∧
      error.cause.category = .incomplete ∧ error.position = ⟨1, front.utf8ByteSize⟩ := by
  rcases schema.needsAll_export.parse_cut schema.toValue_writable htext hback with
    ⟨error, hparse, hcategory, hposition⟩
  exact ⟨error, Schema.ofJson_unreadable_iff.mpr hparse, hcategory, hposition⟩

/-- The cut is in the canonical order, inside the digits of an escaped character. -/
theorem Schema.cut_export_inside_escape :
    ∃ error, (Schema.ofJson "\x7b\"groups\":[[\"\\u0001\"]],\"order\":[\"\\u00").value =
        .error (.unreadable error) ∧
      error.cause.category = .incomplete ∧ error.position = ⟨1, 37⟩ := by
  have htext : "\x7b\"groups\":[[\"\\u0001\"]],\"order\":[\"\\u00" ++ "01\"]\x7d" =
      (Schema.ofTable [[⟨"\x01"⟩]] (by decide +kernel)).toValue.text := by
    decide +kernel
  exact Schema.cut_export_incomplete _ htext (by decide)

end CaskOrder
