import CaskOrder.Config
import CaskOrder.Proofs.Schema.FirstDefect
import CaskOrder.Proofs.Json.Records

/-!
# Loading a schema

A configuration is a JSON document of one of two forms.  Either it is an object in which
one key is `groups` and any other keys are passed over with whatever values they have, or
it is a list of one item.  The value of the key, or the item, lists the groups.

A schema is loaded from every configuration and from no other text, and what comes of it
depends on the table only.
-/

namespace CaskOrder

open Json (Literal Value RecordForm)
open Json.Grammar (Begins Body Document HexDigit)

namespace GroupTable

/-- The value is a list of lists of strings, which are the names of the stanzas. -/
def IsListed (value : Value Literal) (table : GroupTable) : Prop :=
  value.IsList (Value.IsList fun item (stanza : Stanza) => item.IsString stanza.name) table

/-- The values that configure a group table.  The names of the other keys are decoded, so
their halves of characters are paired; nothing is asked of the other values. -/
inductive Configures : Value Literal → GroupTable → Prop where
  | keyed {before after : List (Literal × Value Literal)} {key : Literal} {value : Value Literal}
      {table : GroupTable} :
      key.text? = some "groups" → IsListed value table →
      (∀ member ∈ before ++ after, ∃ name, member.1.text? = some name ∧ name ≠ "groups") →
      Configures (.object (before ++ (key, value) :: after)) table
  | listed {value : Value Literal} {table : GroupTable} :
      IsListed value table → Configures (.list [value]) table

end GroupTable

theorem Stanza.reader_reads :
    Stanza.reader.Reads fun value (stanza : Stanza) => value.IsString stanza.name := by
  intro cs stanza rest
  rw [Stanza.reader, Json.string_reads.map Stanza.mk]
  constructor
  · intro h
    obtain ⟨ds, value, hblanks, hbegins, name, hname, hstanza⟩ := h
    rw [← hstanza]
    exact ⟨ds, value, hblanks, hbegins, hname⟩
  · intro h
    obtain ⟨ds, value, hblanks, hbegins, hname⟩ := h
    exact ⟨ds, value, hblanks, hbegins, stanza.name, hname, rfl⟩

theorem Group.reader_reads :
    Group.reader.Reads (Value.IsList fun item (stanza : Stanza) => item.IsString stanza.name) :=
  Json.listOf_reads Stanza.reader_reads

theorem GroupTable.form_reads : GroupTable.form.value.Reads GroupTable.IsListed :=
  Json.listOf_reads Group.reader_reads

theorem GroupTable.configures_iff_holds {value : Value Literal} {table : GroupTable} :
    GroupTable.Configures value table ↔ GroupTable.form.Holds GroupTable.IsListed value table := by
  constructor
  · intro h
    cases h with
    | keyed hkey hvalue hmembers => exact .keyed hkey hvalue hmembers
    | listed hvalue => exact .listed hvalue
  · intro h
    cases h with
    | keyed hkey hvalue hmembers => exact .keyed hkey hvalue hmembers
    | listed hvalue => exact .listed hvalue
    | unkeyed hdefault => cases hdefault
    | empty hdefault => cases hdefault

/-- The texts that are read as a group table. -/
theorem GroupTable.parse_eq_ok_iff {text : String} {table : GroupTable} :
    GroupTable.reader.parse text = .ok table ↔
      ∃ value, Document text.toList value ∧ GroupTable.Configures value table := by
  simp only [GroupTable.configures_iff_holds]
  exact Json.parse_eq_ok_iff (Json.record_reads GroupTable.form_reads)

theorem Schema.ofJson_of_parse {text : String} {table : GroupTable}
    (hparse : GroupTable.reader.parse text = .ok table) :
    Schema.ofJson text = (Schema.build table).mapError .defective := by
  rw [Schema.ofJson, hparse]
  rfl

theorem Schema.ofJson_of_parse_error {text : String} {error : Json.ParseError}
    (hparse : GroupTable.reader.parse text = .error error) :
    Schema.ofJson text = .silent (.error (.unreadable error)) := by
  rw [Schema.ofJson, hparse]
  rfl

theorem Schema.ofJson_failsSilently (text : String) : (Schema.ofJson text).FailsSilently :=
  Logged.failsSilently_attempt fun table _ => (Schema.build_failsSilently table).mapError _

theorem Schema.ofJson_unreadable_iff {text : String} {error : Json.ParseError} :
    (Schema.ofJson text).value = .error (.unreadable error) ↔
      GroupTable.reader.parse text = .error error := by
  cases hparse : GroupTable.reader.parse text with
  | error found => simp [Schema.ofJson_of_parse_error hparse]
  | ok table => simp [Schema.ofJson_of_parse hparse, Logged.value_mapError_eq_error_iff]

theorem Schema.readable_iff_parse {text : String} :
    (¬∃ error, (Schema.ofJson text).value = .error (.unreadable error)) ↔
      ∃ table, GroupTable.reader.parse text = .ok table := by
  simp only [Schema.ofJson_unreadable_iff]
  cases GroupTable.reader.parse text with
  | error error => simp
  | ok table => simp

/-- A text is readable if and only if it is a configuration, and then the outcome is that
of building the table it configures. -/
theorem Schema.ofJson_reads_configurations (text : String) :
    ((¬∃ error, (Schema.ofJson text).value = .error (.unreadable error)) ↔
      ∃ value table, Document text.toList value ∧ GroupTable.Configures value table) ∧
    ∀ value table, Document text.toList value → GroupTable.Configures value table →
      Schema.ofJson text = (Schema.build table).mapError .defective := by
  constructor
  · rw [Schema.readable_iff_parse]
    simp only [GroupTable.parse_eq_ok_iff]
    exact exists_comm
  · intro value table hdocument hconfigures
    apply Schema.ofJson_of_parse
    exact GroupTable.parse_eq_ok_iff.mpr ⟨value, hdocument, hconfigures⟩

/-- A key is passed over with half a character as its value, and the name of the stanza is
escaped. -/
theorem Schema.ofJson_behind_half_character :
    (∃ value, Document "\x7b\"k\":\"\\udc00\",\"groups\":[[\"\\u0061\"]]\x7d".toList value ∧
        GroupTable.Configures value [[⟨"a"⟩]]) ∧
      Schema.ofJson "\x7b\"k\":\"\\udc00\",\"groups\":[[\"\\u0061\"]]\x7d" =
        (Schema.build [[⟨"a"⟩]]).mapError .defective := by
  have hzero : HexDigit '0' 0 := .inl (by decide)
  have hone : HexDigit '1' 1 := .inl (by decide)
  have hsix : HexDigit '6' 6 := .inl (by decide)
  have htwelve : HexDigit 'c' 12 := .inl (by decide)
  have hthirteen : HexDigit 'd' 13 := .inl (by decide)
  have hhalf (rest : List Char) :
      Begins ('"' :: '\\' :: 'u' :: 'd' :: 'c' :: '0' :: '0' :: '"' :: rest)
        (.string [.unit 0xdc00]) rest :=
    .string (.unit hthirteen htwelve hzero hzero (.quote rest))
  have hname (rest : List Char) :
      Begins ('"' :: '\\' :: 'u' :: '0' :: '0' :: '6' :: '1' :: '"' :: rest)
        (.string [.unit 0x61]) rest :=
    .string (.unit hzero hzero hsix hone (.quote rest))
  have hkey := Json.body_of_plain "groups".toList (by simp)
  have hgroup : Begins "[\"\\u0061\"]]\x7d".toList (.list [.string [.unit 0x61]]) [']', '}'] :=
    .list (.last (.none _) (hname _) (.none _))
  have htable : Begins "[[\"\\u0061\"]]\x7d".toList (.list [.list [.string [.unit 0x61]]]) ['}'] :=
    .list (.last (.none _) hgroup (.none _))
  have hignored := Json.body_of_plain ['k'] (by simp)
  have hdocument : Document "\x7b\"k\":\"\\udc00\",\"groups\":[[\"\\u0061\"]]\x7d".toList
      (.object [([.char 'k'], .string [.unit 0xdc00]),
        ("groups".toList.map .char, .list [.list [.string [.unit 0x61]]])]) :=
    ⟨_, [], .none _, .object (.more (.none _) (hignored _) (.none _) (.none _) (hhalf _) (.none _)
      (.last (.none _) (hkey _) (.none _) (.none _) htable (.none _))), .none _⟩
  have hconfigures : GroupTable.Configures
      (.object ([([.char 'k'], .string [.unit 0xdc00])] ++
        ("groups".toList.map .char, .list [.list [.string [.unit 0x61]]]) :: [])) [[⟨"a"⟩]] := by
    apply GroupTable.Configures.keyed rfl
    · exact ⟨_, rfl, .cons ⟨_, rfl, .cons ⟨_, rfl, rfl⟩ .nil⟩ .nil⟩
    · intro member hmember
      rw [List.append_nil, List.mem_singleton] at hmember
      rw [hmember]
      exact ⟨"k", rfl, by decide⟩
  exact ⟨⟨_, hdocument, hconfigures⟩,
    (Schema.ofJson_reads_configurations _).2 _ _ hdocument hconfigures⟩

end CaskOrder
