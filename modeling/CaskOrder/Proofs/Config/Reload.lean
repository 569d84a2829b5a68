import CaskOrder.Proofs.Config.Loading
import CaskOrder.Proofs.Json.Writing
import CaskOrder.Proofs.Schema.FirstDefect
import CaskOrder.Report
import CaskOrder.Schema.Cask

/-!
# Exported schemas

An exported schema is a configuration of its own group table, so it is loaded as the same
schema again.  The canonical order is passed over, and is derived from the table once
more.
-/

namespace CaskOrder

open Json (Literal Value)

/-! ## Comparing schemas -/

theorem Schema.eq_of_groups_eq {a b : Schema} (h : a.groups = b.groups) : a = b := by
  obtain ⟨groups, order, places, sound, horder, hplaces⟩ := a
  obtain ⟨groups', order', places', sound', horder', hplaces'⟩ := b
  have hgroups : groups = groups' := h
  subst hgroups
  rw [← horder] at horder'
  rw [← hplaces] at hplaces'
  subst horder'
  subst hplaces'
  rfl

theorem Schema.beq_iff_eq {a b : Schema} : (a == b) = true ↔ a = b := by
  constructor
  · intro h
    change (a.groups == b.groups && a.order == b.order && a.places == b.places) = true at h
    simp only [Bool.and_eq_true] at h
    exact Schema.eq_of_groups_eq (eq_of_beq h.1.1)
  · intro h
    have hplaces : (b.places == b.places) = true := Std.TreeMap.Equiv.beq .rfl
    rw [h]
    change (b.groups == b.groups && b.order == b.order && b.places == b.places) = true
    simp [hplaces]

theorem Schema.build_groups (schema : Schema) :
    (Schema.build schema.groups).value = .ok schema := by
  rw [Schema.build_of_sound schema.sound, Except.ok.injEq]
  exact Schema.eq_of_groups_eq rfl

/-! ## What is exported -/

theorem strings_writable (texts : List String) : (Value.strings texts).Writable := by
  apply Value.Writable.list
  intro item hitem
  obtain ⟨text, -, htext⟩ := List.mem_map.mp hitem
  rw [← htext]
  exact .string text

theorem Stanza.toValue_writable (stanza : Stanza) : stanza.toValue.Writable :=
  .string stanza.name

theorem Group.toValue_writable (group : Group) : group.toValue.Writable :=
  strings_writable _

theorem Schema.toValue_writable (schema : Schema) : schema.toValue.Writable := by
  have hgroups : (Value.list (schema.groups.map Group.toValue)).Writable := by
    apply Value.Writable.list
    intro item hitem
    obtain ⟨group, -, hgroup⟩ := List.mem_map.mp hitem
    rw [← hgroup]
    exact group.toValue_writable
  apply Value.Writable.object
  intro member hmember
  simp only [List.mem_cons, List.not_mem_nil, or_false] at hmember
  rcases hmember with hmember | hmember
  · rw [hmember]
    exact hgroups
  · rw [hmember]
    exact strings_writable _

/-- A value that is decoded to a list of values, each of which means something, means the
list of these. -/
theorem isList_of_decodes {means : Value Literal → α → Prop} {f : α → Value String}
    (hmeans : ∀ value a, value.Decodes (f a) → means value a) {value : Value Literal}
    {as : List α} (h : value.Decodes (.list (as.map f))) : value.IsList means as := by
  cases h with
  | @list items _ hitems =>
      have hitems' : List.Forall₂ (fun item a => item.Decodes (f a)) items as :=
        List.forall₂_map_right_iff.mp hitems
      exact ⟨items, rfl, hitems'.imp hmeans⟩

theorem isString_of_decodes {value : Value Literal} {text : String}
    (h : value.Decodes (.string text)) : value.IsString text := by
  cases h with
  | string htext => exact ⟨_, rfl, htext⟩

theorem Group.isList_of_decodes {value : Value Literal} {group : Group}
    (h : value.Decodes group.toValue) :
    value.IsList (fun item (stanza : Stanza) => item.IsString stanza.name) group := by
  rw [Group.toValue_eq] at h
  apply CaskOrder.isList_of_decodes _ h
  intro name stanza hname
  exact isString_of_decodes hname

theorem GroupTable.isListed_of_decodes {value : Value Literal} {table : GroupTable}
    (h : value.Decodes (.list (table.map Group.toValue))) : GroupTable.IsListed value table := by
  apply isList_of_decodes _ h
  intro item group hgroup
  exact Group.isList_of_decodes hgroup

/-- An exported schema configures the table that it was built from. -/
theorem Schema.configures_of_decodes {schema : Schema} {value : Value Literal}
    (h : value.Decodes schema.toValue) : GroupTable.Configures value schema.groups := by
  obtain ⟨key, groups, rest, hvalue, hkey, hgroups, hrest⟩ := Value.decodes_object_cons h
  obtain ⟨orderKey, order, rest', hrest', horderKey, -, hnil⟩ := Value.decodes_object_cons hrest
  cases hrest'
  cases Value.decodes_object_nil hnil
  rw [hvalue]
  change GroupTable.Configures (.object ([] ++ (key, groups) :: [(orderKey, order)])) schema.groups
  apply GroupTable.Configures.keyed hkey (GroupTable.isListed_of_decodes hgroups)
  intro member hmember
  rw [List.nil_append, List.mem_singleton] at hmember
  rw [hmember]
  exact ⟨"order", horderKey, by decide⟩

theorem Schema.ofJson_export (schema : Schema) :
    (Schema.ofJson schema.toValue.text).value = .ok schema := by
  obtain ⟨value, hdocument, hdecodes⟩ := Json.document_of_writable schema.toValue_writable
  have hconfigures := Schema.configures_of_decodes hdecodes
  have hparse := GroupTable.parse_eq_ok_iff.mpr ⟨value, hdocument, hconfigures⟩
  rw [Schema.ofJson_of_parse hparse, Logged.value_mapError_eq_ok_iff]
  exact schema.build_groups

/-! ## Reports on schemas -/

/-- The text of a report on a success, around the text of its data. -/
def Report.around (data : String) : String :=
  "\x7b\"success\":true,\"data\":" ++ data ++ "\x7d"

theorem Report.text_ofData (data : Value String) :
    (Report.ofData data).text = Report.around data.text := by
  have hsuccess : Json.writeString "success" = "\"success\"".toList := by
    simp [Json.writeString, Json.writeChar, Json.isControl]
  have hdata : Json.writeString "data" = "\"data\"".toList := by
    simp [Json.writeString, Json.writeChar, Json.isControl]
  have hwrite : (Report.ofData data).toValue.write =
      "\x7b\"success\":true,\"data\":".toList ++ (data.write ++ "\x7d".toList) := by
    simp [Report.toValue, Report.ofData, Value.write, Value.writeMembers, hsuccess, hdata]
  exact Value.text_of_write hwrite

theorem Report.buildSchema_export (schema : Schema) :
    Report.buildSchema schema.toValue.text = Report.ofSchema schema := by
  rw [Report.buildSchema, schema.ofJson_export]

theorem Report.exists_schema_of_success {text : String}
    (hsuccess : (Report.buildSchema text).success = true) :
    ∃ schema, Report.buildSchema text = Report.ofSchema schema := by
  unfold Report.buildSchema at hsuccess ⊢
  split at hsuccess
  · next schema _ => exact ⟨schema, rfl⟩
  · cases hsuccess

/-- An exported schema is loaded as the same schema, and exporting it again gives the same
text.  So the data of a report on a schema is reported on in the same way. -/
theorem Report.export_reloads :
    (∀ schema, (Report.ofSchema schema).text = Report.around schema.toValue.text ∧
      ∃ loaded, (Schema.ofJson schema.toValue.text).value = .ok loaded ∧
        (loaded == schema) = true ∧ loaded = schema ∧
        loaded.toValue.text = schema.toValue.text) ∧
    ∀ text, (Report.buildSchema text).success = true →
      ∃ data, (Report.buildSchema text).text = Report.around data ∧
        (Report.buildSchema data).text = (Report.buildSchema text).text := by
  constructor
  · intro schema
    exact ⟨Report.text_ofData _, schema, schema.ofJson_export, Schema.beq_iff_eq.mpr rfl, rfl,
      rfl⟩
  · intro text hsuccess
    obtain ⟨schema, hschema⟩ := Report.exists_schema_of_success hsuccess
    rw [hschema]
    refine ⟨schema.toValue.text, Report.text_ofData _, ?_⟩
    rw [Report.buildSchema_export]

theorem Report.export_reloads_cask :
    ∃ data, (Report.buildSchema Schema.cask.toValue.text).text = Report.around data ∧
      (Report.buildSchema data).text = (Report.buildSchema Schema.cask.toValue.text).text := by
  have hsuccess : (Report.buildSchema Schema.cask.toValue.text).success = true := by
    rw [Report.buildSchema_export]
    rfl
  exact Report.export_reloads.2 Schema.cask.toValue.text hsuccess

end CaskOrder
