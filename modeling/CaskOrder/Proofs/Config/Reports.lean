import CaskOrder.Proofs.Config.Reload
import CaskOrder.Proofs.Json.Decoding
import CaskOrder.Proofs.Json.OneLine

/-!
# What reports say

A report is written from a value, so its text is one JSON object on one line, and a reader of
the text finds the members of the value and nothing else.  This holds whatever characters are
in the names of stanzas and in the messages of errors.

The main statement says what is found in each kind of report.  A report on an outcome tells
whether there was one, and has either its data or the message of the error.
-/

namespace CaskOrder

open Json (Value DecodesTo OneLine)

/-! ## Texts of objects -/

/-- The text is one JSON object on one line.  It has the given members in their order, and
their names are different. -/
structure IsObject (text : String) (members : List (String × Value String)) : Prop where
  one_line : ∀ c ∈ text.toList, 0x20 ≤ c.toNat
  names_nodup : (members.map Prod.fst).Nodup
  decodes : DecodesTo text (.object members)

theorem IsObject.unique {text : String} {members members' : List (String × Value String)}
    (h : IsObject text members) (h' : IsObject text members') : members = members' := by
  obtain ⟨literals, hliterals, hdecodes⟩ := h.decodes
  obtain ⟨literals', hliterals', hdecodes'⟩ := h'.decodes
  have heq : literals = literals' := (hliterals' literals).mp ((hliterals literals).mpr rfl)
  have hmembers := (hdecodes' (.object members)).mp (heq ▸ (hdecodes (.object members)).mpr rfl)
  rw [Value.object.injEq] at hmembers
  exact hmembers

theorem isObject_text {members : List (String × Value String)}
    (hwritable : (Value.object members).Writable) (hnames : (members.map Prod.fst).Nodup) :
    IsObject (Value.object members).text members where
  one_line := by
    rw [Value.text, String.toList_ofList]
    exact hwritable.oneLine
  names_nodup := hnames
  decodes := Json.decodesTo_text hwritable

/-- The message on a repeated stanza has its name as it is. -/
theorem message_of_repeated (stanza : Stanza) :
    (ConfigError.defective (.repeated stanza)).message =
      "invalid schema: duplicate stanza `" ++ stanza.name ++ "` in group table" := by
  have hfront : "invalid schema: " ++ "duplicate stanza `" =
      "invalid schema: duplicate stanza `" := rfl
  change "invalid schema: " ++ ("duplicate stanza `" ++ stanza.name ++ "` in group table") = _
  rw [← hfront]
  simp only [String.append_assoc]

/-! ## Reports -/

/-- The groups of a schema and its canonical order, by the names of the stanzas. -/
def Schema.listing (schema : Schema) : Value String :=
  .object
    [("groups", .list (schema.groups.map fun group =>
        .list (group.map fun stanza => .string stanza.name))),
      ("order", .list (schema.order.map fun stanza => .string stanza.name))]

theorem Schema.toValue_eq_listing (schema : Schema) : schema.toValue = schema.listing := by
  simp [Schema.toValue, Schema.listing, Group.toValue, Value.strings, Function.comp_def]

namespace Report

theorem toValue_writable {report : Report}
    (hdata : ∀ data ∈ report.data?, data.Writable) : report.toValue.Writable := by
  apply Value.Writable.object
  intro member hmember
  simp only [List.cons_append, List.mem_cons, List.mem_append, Option.mem_toList,
    Option.map_eq_some_iff] at hmember
  rcases hmember with hsuccess | ⟨data, hmem, hmember⟩ | ⟨error, -, hmember⟩
  · rw [hsuccess]
    exact .bool _
  · rw [← hmember]
    exact hdata data hmem
  · rw [← hmember]
    exact .string error

/-- The members of a report, as a reader of its text finds them. -/
theorem isObject_of_writable (success : Bool) {data? : Option (Value String)}
    (hdata : ∀ data ∈ data?, data.Writable) (error? : Option String) :
    IsObject (Report.mk success data? error?).text
      (("success", .bool success) :: (data?.map fun data => ("data", data)).toList
        ++ (error?.map fun error => ("error", Value.string error)).toList) := by
  have hwritable : (Report.mk success data? error?).toValue.Writable := toValue_writable hdata
  apply isObject_text hwritable
  cases data? <;> cases error? <;> simp

theorem isObject_ofData {data : Value String} (hdata : data.Writable) :
    IsObject (ofData data).text [("success", .bool true), ("data", data)] := by
  have hsome : ∀ found ∈ some data, found.Writable := by
    simpa using hdata
  exact isObject_of_writable true hsome none

theorem isObject_ofError (message : String) :
    IsObject (ofError message).text [("success", .bool false), ("error", .string message)] := by
  have hnone : ∀ found ∈ (none : Option (Value String)), found.Writable := by
    simp
  exact isObject_of_writable false hnone (some message)

/-- The text says whether there is an outcome, and has its data or the message of the error. -/
structure ReportsOn (text : String) (outcome : Except ε α) (data : α → Value String)
    (message : ε → String) : Prop where
  success_iff : (∃ a, outcome = .ok a) ↔
    ∃ members, IsObject text members ∧ ("success", .bool true) ∈ members
  of_ok : ∀ a, outcome = .ok a → IsObject text [("success", .bool true), ("data", data a)]
  of_error : ∀ error, outcome = .error error →
    IsObject text [("success", .bool false), ("error", .string (message error))]

theorem reportsOn_of_outcome {text : String} {outcome : Except ε α} {data : α → Value String}
    {message : ε → String} (hdata : ∀ a, (data a).Writable)
    (htext : text = match outcome with
      | .ok a => (ofData (data a)).text
      | .error error => (ofError (message error)).text) :
    ReportsOn text outcome data message := by
  rw [htext]
  cases outcome with
  | ok a =>
      have hobject := isObject_ofData (hdata a)
      constructor
      · simp only [Except.ok.injEq, exists_eq', true_iff]
        exact ⟨_, hobject, by simp⟩
      · intro found hfound
        cases hfound
        exact hobject
      · intro error herror
        cases herror
  | error error =>
      have hobject := isObject_ofError (message error)
      constructor
      · simp only [reduceCtorEq, exists_false, false_iff, not_exists, not_and]
        intro members hmembers
        rw [← hobject.unique hmembers]
        simp
      · intro found hfound
        cases hfound
      · intro found hfound
        cases hfound
        exact hobject

theorem reportsOn_buildSchema (json : String) :
    ReportsOn (buildSchema json).text (Schema.ofJson json).value Schema.listing
      ConfigError.message := by
  apply reportsOn_of_outcome
  · intro schema
    rw [← schema.toValue_eq_listing]
    exact schema.toValue_writable
  · unfold buildSchema
    cases (Schema.ofJson json).value with
    | ok schema =>
        change (ofData schema.toValue).text = (ofData schema.listing).text
        rw [schema.toValue_eq_listing]
    | error error => rfl

theorem reportsOn_deriveNames (json : String) :
    ReportsOn (deriveNames json).text (BlockNames.ofJson json).value
      (fun set => .list (set.names.map .string)) Json.ParseError.message := by
  apply reportsOn_of_outcome
  · intro set
    exact strings_writable set.names
  · unfold deriveNames
    cases (BlockNames.ofJson json).value with
    | ok set => rfl
    | error error => rfl

/-- Reports are single JSON objects on one line, from which their members are read as they
were put in.  A report on a schema has its groups and its canonical order; one on a text has
the schema or the block names that come of it, or the message of what is wrong with it, in
which a repeated stanza is named as it is. -/
theorem texts_decode :
    (∀ (success : Bool) (texts? : Option (List String)) (error? : Option String),
      IsObject (Report.mk success (texts?.map Value.strings) error?).text
        (("success", .bool success)
          :: (texts?.map fun texts => ("data", Value.list (texts.map .string))).toList
          ++ (error?.map fun error => ("error", Value.string error)).toList)) ∧
      (∀ schema : Schema, IsObject (ofSchema schema).text
        [("success", .bool true), ("data", schema.listing)]) ∧
      (∀ json, ReportsOn (buildSchema json).text (Schema.ofJson json).value Schema.listing
        ConfigError.message) ∧
      (∀ json, ReportsOn (deriveNames json).text (BlockNames.ofJson json).value
        (fun set => .list (set.names.map .string)) Json.ParseError.message) ∧
      ∀ json stanza, (Schema.ofJson json).value = .error (.defective (.repeated stanza)) →
        IsObject (buildSchema json).text [("success", .bool false),
          ("error", .string
            ("invalid schema: duplicate stanza `" ++ stanza.name ++ "` in group table"))] := by
  refine ⟨?_, ?_, reportsOn_buildSchema, reportsOn_deriveNames, ?_⟩
  · intro success texts? error?
    have hdata : ∀ data ∈ texts?.map Value.strings, data.Writable := by
      intro data hmem
      obtain ⟨texts, -, hdata⟩ := Option.map_eq_some_iff.mp hmem
      rw [← hdata]
      exact strings_writable texts
    have hobject := isObject_of_writable success hdata error?
    rw [Option.map_map] at hobject
    exact hobject
  · intro schema
    rw [ofSchema, ← schema.toValue_eq_listing]
    exact isObject_ofData schema.toValue_writable
  · intro json stanza hload
    have hobject := (reportsOn_buildSchema json).of_error _ hload
    rw [message_of_repeated] at hobject
    exact hobject

theorem buildSchema_of_quote_repeated :
    IsObject (buildSchema "[[[\"a\\\"\"],[\"a\\\"\"]]]").text
      [("success", .bool false), ("error", .string
        ("invalid schema: duplicate stanza `" ++ "a\"" ++ "` in group table"))] := by
  have hcheck : (match (Schema.ofJson "[[[\"a\\\"\"],[\"a\\\"\"]]]").value with
      | .error (.defective (.repeated stanza)) => decide (stanza = ⟨"a\""⟩)
      | _ => false) = true := by
    decide +kernel
  have hload : (Schema.ofJson "[[[\"a\\\"\"],[\"a\\\"\"]]]").value =
      .error (.defective (.repeated ⟨"a\""⟩)) := by
    split at hcheck
    · next stanza hload => rw [hload, of_decide_eq_true hcheck]
    · cases hcheck
  exact texts_decode.2.2.2.2 _ _ hload

end Report
end CaskOrder
