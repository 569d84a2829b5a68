import CaskOrder.Proofs.Config.Reload

/-!
# Loading block names

The releases of a platform are configured as group tables are, by an object with a key
`versions` or by a list of one item, but they may be left out.  An object without the key and
an empty list configure no releases; a `null` in their place does not.

Block names are derived from every such text and from no other.  A set of block names is
itself written as a list of strings, so it can stand where releases are expected: its names
are then taken as the symbols of releases.
-/

namespace CaskOrder

open Json (Literal Value)
open Json.Grammar (Begins Body Document HexDigit)

/-- The values that configure the releases of a platform.  The names of the other keys are
decoded, so their halves of characters are paired; nothing is asked of the other values. -/
inductive ConfiguresReleases : Value Literal → List String → Prop where
  | keyed {before after : List (Literal × Value Literal)} {key : Literal} {value : Value Literal}
      {symbols : List String} :
      key.text? = some "versions" → value.IsList Value.IsString symbols →
      (∀ member ∈ before ++ after, ∃ name, member.1.text? = some name ∧ name ≠ "versions") →
      ConfiguresReleases (.object (before ++ (key, value) :: after)) symbols
  | unkeyed {members : List (Literal × Value Literal)} :
      (∀ member ∈ members, ∃ name, member.1.text? = some name ∧ name ≠ "versions") →
      ConfiguresReleases (.object members) []
  | listed {value : Value Literal} {symbols : List String} :
      value.IsList Value.IsString symbols → ConfiguresReleases (.list [value]) symbols
  | empty : ConfiguresReleases (.list []) []

theorem platformForm_reads : platformForm.value.Reads (Value.IsList Value.IsString) :=
  Json.listOf_reads Json.string_reads

theorem configuresReleases_iff_holds {value : Value Literal} {symbols : List String} :
    ConfiguresReleases value symbols ↔
      platformForm.Holds (Value.IsList Value.IsString) value symbols := by
  constructor
  · intro h
    cases h with
    | keyed hkey hvalue hmembers => exact .keyed hkey hvalue hmembers
    | unkeyed hmembers => exact .unkeyed rfl hmembers
    | listed hvalue => exact .listed hvalue
    | empty => exact .empty rfl
  · intro h
    cases h with
    | keyed hkey hvalue hmembers => exact .keyed hkey hvalue hmembers
    | unkeyed hdefault hmembers =>
        cases hdefault
        exact .unkeyed hmembers
    | listed hvalue => exact .listed hvalue
    | empty hdefault =>
        cases hdefault
        exact .empty

/-- The texts that are read as the releases of a platform. -/
theorem platformReader_parse_eq_ok_iff {text : String} {symbols : List String} :
    platformReader.parse text = .ok symbols ↔
      ∃ value, Document text.toList value ∧ ConfiguresReleases value symbols := by
  simp only [configuresReleases_iff_holds]
  exact Json.parse_eq_ok_iff (Json.record_reads platformForm_reads)

namespace BlockNames

theorem ofJson_of_parse {text : String} {symbols : List String}
    (hparse : platformReader.parse text = .ok symbols) :
    ofJson text = (ofReleases symbols).map .ok := by
  rw [ofJson, hparse]
  rfl

theorem ofJson_of_parse_error {text : String} {error : Json.ParseError}
    (hparse : platformReader.parse text = .error error) :
    ofJson text = .silent (.error error) := by
  rw [ofJson, hparse]
  rfl

theorem ofJson_eq_error_iff {text : String} {error : Json.ParseError} :
    (ofJson text).value = .error error ↔ platformReader.parse text = .error error := by
  cases hparse : platformReader.parse text with
  | error found => simp [ofJson_of_parse_error hparse]
  | ok symbols => simp [ofJson_of_parse hparse]

theorem ofJson_failsSilently (text : String) : (ofJson text).FailsSilently :=
  Logged.failsSilently_attempt fun symbols _ => Logged.failsSilently_map_ok (ofReleases symbols)

/-- Where a set is derived from a text, it is derived from releases that the text is read as. -/
theorem exists_parse_of_ofJson {text : String} {set : BlockNames}
    (hload : (ofJson text).value = .ok set) :
    ∃ symbols, platformReader.parse text = .ok symbols ∧
      ofJson text = (ofReleases symbols).map .ok ∧ set = (ofReleases symbols).value := by
  cases hparse : platformReader.parse text with
  | error error => simp [ofJson_of_parse_error hparse] at hload
  | ok symbols =>
      rw [ofJson_of_parse hparse, Logged.value_map, Except.ok.injEq] at hload
      exact ⟨symbols, rfl, ofJson_of_parse hparse, hload.symm⟩

/-! ## Sets of block names as releases -/

/-- A configuration with the given text as the list of releases. -/
def platformText (versions : String) : String :=
  "\x7b\"versions\":" ++ versions ++ "\x7d"

theorem text_versions (versions : Value String) :
    (Value.object [("versions", versions)]).text = platformText versions.text := by
  have hkey : Json.writeString "versions" = "\"versions\"".toList := by
    simp [Json.writeString, Json.writeChar, Json.isControl]
  have hwrite : (Value.object [("versions", versions)]).write =
      "\x7b\"versions\":".toList ++ (versions.write ++ "\x7d".toList) := by
    simp [Value.write, Value.writeMembers, hkey]
  exact Value.text_of_write hwrite

theorem configures_of_decodes {set : BlockNames} {value : Value Literal}
    (h : value.Decodes (.object [("versions", set.toValue)])) :
    ConfiguresReleases value set.names := by
  rcases Value.decodes_object_cons h with ⟨key, versions, rest, hvalue, hkey, hversions, hrest⟩
  cases Value.decodes_object_nil hrest
  rw [hvalue]
  change ConfiguresReleases (.object ([] ++ (key, versions) :: [])) set.names
  have hnames : versions.Decodes (.list (set.names.map Value.string)) := hversions
  apply ConfiguresReleases.keyed hkey _ (by simp)
  apply isList_of_decodes _ hnames
  intro item name hname
  exact isString_of_decodes hname

/-- The names of a set are loaded as they are, whatever characters they have. -/
theorem parse_platformText (set : BlockNames) :
    platformReader.parse (platformText set.toValue.text) = .ok set.names := by
  have hwritable : (Value.object [("versions", set.toValue)]).Writable := by
    apply Value.Writable.object
    intro member hmember
    rw [List.mem_singleton.mp hmember]
    exact strings_writable set.names
  rcases Json.document_of_writable hwritable with ⟨value, hdocument, hdecodes⟩
  rw [text_versions] at hdocument
  exact platformReader_parse_eq_ok_iff.mpr ⟨value, hdocument, configures_of_decodes hdecodes⟩

/-- Block names are derived from a text if and only if it configures releases, and then they
are the names for these releases, or for none where the text leaves them out.  A set of block
names configures its own names as releases. -/
theorem ofJson_reads_platforms :
    (∀ text, ((∃ set, (ofJson text).value = .ok set) ↔
        ∃ value symbols, Document text.toList value ∧ ConfiguresReleases value symbols) ∧
      ∀ value symbols, Document text.toList value → ConfiguresReleases value symbols →
        ofJson text = (ofReleases symbols).map .ok) ∧
      ∀ set : BlockNames,
        ofJson (platformText set.toValue.text) = (ofReleases set.names).map .ok := by
  refine ⟨fun text => ⟨?_, ?_⟩, ?_⟩
  · constructor
    · intro h
      rcases h with ⟨set, hload⟩
      rcases exists_parse_of_ofJson hload with ⟨symbols, hparse, -⟩
      rcases platformReader_parse_eq_ok_iff.mp hparse with ⟨value, hplatform⟩
      exact ⟨value, symbols, hplatform⟩
    · intro h
      rcases h with ⟨value, symbols, hplatform⟩
      have hparse := platformReader_parse_eq_ok_iff.mpr ⟨value, hplatform⟩
      rw [ofJson_of_parse hparse]
      exact ⟨_, rfl⟩
  · intro value symbols hdocument hconfigures
    exact ofJson_of_parse (platformReader_parse_eq_ok_iff.mpr ⟨value, hdocument, hconfigures⟩)
  · intro set
    exact ofJson_of_parse (parse_platformText set)

/-- A key other than `versions` may have the value that `versions` itself may not have.  Behind it
the same release is given twice, and spelled in two ways. -/
theorem ofJson_with_and_without_versions :
    ((∃ value, Document "\x7b\"os\":null\x7d".toList value ∧ ConfiguresReleases value []) ∧
        ofJson "\x7b\"os\":null\x7d" = (ofReleases []).map .ok) ∧
      (∃ value,
          Document "\x7b\"os\":null,\"versions\":[\"a\",\"\\u0061\"]\x7d".toList value ∧
            ConfiguresReleases value ["a", "a"]) ∧
        ofJson "\x7b\"os\":null,\"versions\":[\"a\",\"\\u0061\"]\x7d" =
          (ofReleases ["a", "a"]).map .ok := by
  have hos := Json.body_of_plain ['o', 's'] (by simp)
  have hother : ∀ member ∈ [(([.char 'o', .char 's'], .null) : Literal × Value Literal)],
      ∃ name, member.1.text? = some name ∧ name ≠ "versions" := by
    intro member hmember
    rw [List.mem_singleton.mp hmember]
    exact ⟨"os", rfl, by decide⟩
  constructor
  · have hdocument : Document "\x7b\"os\":null\x7d".toList
        (.object [([.char 'o', .char 's'], .null)]) :=
      ⟨_, [], .none _, .object (.last (.none _) (hos _) (.none _) (.none _) (.null _) (.none _)),
        .none _⟩
    have hconfigures : ConfiguresReleases (.object [([.char 'o', .char 's'], .null)]) [] :=
      .unkeyed hother
    exact ⟨⟨_, hdocument, hconfigures⟩,
      (ofJson_reads_platforms.1 _).2 _ _ hdocument hconfigures⟩
  · have hzero : HexDigit '0' 0 := .inl (by decide)
    have hone : HexDigit '1' 1 := .inl (by decide)
    have hsix : HexDigit '6' 6 := .inl (by decide)
    have hversions := Json.body_of_plain "versions".toList (by simp)
    have hplain (rest : List Char) : Begins ('"' :: 'a' :: '"' :: rest) (.string [.char 'a']) rest :=
      .string (Json.body_of_plain ['a'] (by simp) rest)
    have hescaped (rest : List Char) :
        Begins ('"' :: '\\' :: 'u' :: '0' :: '0' :: '6' :: '1' :: '"' :: rest)
          (.string [.unit 0x61]) rest :=
      .string (.unit hzero hzero hsix hone (.quote rest))
    have hlist : Begins "[\"a\",\"\\u0061\"]\x7d".toList
        (.list [.string [.char 'a'], .string [.unit 0x61]]) ['}'] :=
      .list (.more (.none _) (hplain _) (.none _) (.last (.none _) (hescaped _) (.none _)))
    have hdocument : Document
        "\x7b\"os\":null,\"versions\":[\"a\",\"\\u0061\"]\x7d".toList
        (.object [([.char 'o', .char 's'], .null),
          ("versions".toList.map .char, .list [.string [.char 'a'], .string [.unit 0x61]])]) :=
      ⟨_, [], .none _, .object (.more (.none _) (hos _) (.none _) (.none _) (.null _) (.none _)
        (.last (.none _) (hversions _) (.none _) (.none _) hlist (.none _))), .none _⟩
    have hconfigures : ConfiguresReleases (.object ([([.char 'o', .char 's'], .null)] ++
        ("versions".toList.map .char, .list [.string [.char 'a'], .string [.unit 0x61]]) :: []))
        ["a", "a"] := by
      apply ConfiguresReleases.keyed rfl
      · exact ⟨_, rfl, .cons ⟨_, rfl, rfl⟩ (.cons ⟨_, rfl, rfl⟩ .nil)⟩
      · rw [List.append_nil]
        exact hother
    exact ⟨⟨_, hdocument, hconfigures⟩,
      (ofJson_reads_platforms.1 _).2 _ _ hdocument hconfigures⟩

end BlockNames
end CaskOrder
