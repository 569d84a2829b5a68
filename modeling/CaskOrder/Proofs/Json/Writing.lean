import CaskOrder.Proofs.Json.Strings

/-!
# Values that are written

A value is written as a text of the grammar, and the literals of that text stand for the
strings of the value.  Whatever characters a string has, each of them is written so that
it is read back as the same character; this is all that is needed about strings, since
what follows from it holds of every text with these characters.
-/

namespace CaskOrder.Json

open Grammar

/-! ## Characters and strings -/

theorem hexDigit_digitChar {n : Nat} (hn : n < 16) : HexDigit (Nat.digitChar n) n := by
  rw [← hexDigit?_eq_some_iff]
  interval_cases n <;> decide

theorem codeUnit_of_isControl {c : Char} (hcontrol : isControl c = true) (rest : List Char) :
    CodeUnit ('0' :: '0' :: Nat.digitChar (c.toNat / 16) :: Nat.digitChar (c.toNat % 16) :: rest)
      c.toNat rest := by
  have hcode : c.toNat < 0x20 := by simpa [isControl] using hcontrol
  have hzero : HexDigit '0' 0 := hexDigit_digitChar (n := 0) (by omega)
  have hhigh : HexDigit (Nat.digitChar (c.toNat / 16)) (c.toNat / 16) :=
    hexDigit_digitChar (by omega)
  have hlow : HexDigit (Nat.digitChar (c.toNat % 16)) (c.toNat % 16) :=
    hexDigit_digitChar (by omega)
  exact ⟨'0', '0', _, _, 0, 0, _, _, rfl, hzero, hzero, hhigh, hlow, by omega⟩

/-- A character that is written is read back, whatever follows it. -/
theorem charAt_writeChar (c : Char) (rest : List Char) : CharAt (writeChar c ++ rest) c rest := by
  have hletter {letter c : Char} (hescaped : Escaped letter c) :
      CharAt ('\\' :: letter :: rest) c rest :=
    .alone (.letter rest hescaped) (.char c)
  unfold writeChar
  split
  · next hc =>
    rw [hc]
    exact hletter .quote
  split
  · next hc =>
    rw [hc]
    exact hletter .backslash
  split
  · next hc =>
    rw [hc]
    exact hletter .backspace
  split
  · next hc =>
    rw [hc]
    exact hletter .formFeed
  split
  · next hc =>
    rw [hc]
    exact hletter .lineFeed
  split
  · next hc =>
    rw [hc]
    exact hletter .carriageReturn
  split
  · next hc =>
    rw [hc]
    exact hletter .tab
  split
  · next hcontrol =>
    have hcode : c.toNat < 0x20 := by simpa [isControl] using hcontrol
    have hhigh : isHighHalf c.toNat = false := by
      simp only [isHighHalf, Bool.and_eq_false_iff, decide_eq_false_iff_not]
      omega
    have hlow : isLowHalf c.toNat = false := by
      simp only [isLowHalf, Bool.and_eq_false_iff, decide_eq_false_iff_not]
      omega
    have halone : Alone (.unit c.toNat) c := by
      have hunit := Alone.unit hhigh hlow
      rw [Char.ofNat_toNat] at hunit
      exact hunit
    exact .alone (.unit (codeUnit_of_isControl hcontrol rest)) halone
  · next hquote hbackslash _ _ _ _ _ hcontrol =>
    have hcode : 0x20 ≤ c.toNat := by simpa [isControl] using hcontrol
    exact .alone (.plain rest hquote hbackslash hcode) (.char c)

theorem spells_write (chars rest : List Char) :
    Spells (chars.flatMap writeChar ++ '"' :: rest) chars rest := by
  induction chars with
  | nil => exact .nil rest
  | cons c chars ih =>
      rw [List.flatMap_cons, List.append_assoc]
      exact .cons (charAt_writeChar c _) ih

theorem body_write (text : String) (rest : List Char) :
    ∃ literal, Body (text.toList.flatMap writeChar ++ '"' :: rest) literal rest ∧
      Literal.text? literal = some text := by
  obtain ⟨literal, hbody, hchars⟩ := (spells_write text.toList rest).body
  have htext : Literal.text? literal = some text := by
    rw [Literal.text?, hchars, Option.map_some, String.ofList_toList]
  exact ⟨literal, hbody, htext⟩

theorem writeString_append (text : String) (rest : List Char) :
    writeString text ++ rest = '"' :: (text.toList.flatMap writeChar ++ '"' :: rest) := by
  simp [writeString]

/-! ## Values -/

/-- The literals in the first value stand for the strings in the second one, which is the
same value otherwise. -/
inductive Value.Decodes : Value Literal → Value String → Prop where
  | null : Decodes .null .null
  | bool (value : Bool) : Decodes (.bool value) (.bool value)
  | number (numeral : List Char) : Decodes (.number numeral) (.number numeral)
  | string {literal : Literal} {text : String} :
      literal.text? = some text → Decodes (.string literal) (.string text)
  | list {items : List (Value Literal)} {decoded : List (Value String)} :
      List.Forall₂ Decodes items decoded → Decodes (.list items) (.list decoded)
  | object {members : List (Literal × Value Literal)} {decoded : List (String × Value String)} :
      members.map (fun member => member.1.text?) = decoded.map (fun member => some member.1) →
      List.Forall₂ Decodes (members.map Prod.snd) (decoded.map Prod.snd) →
      Decodes (.object members) (.object decoded)

theorem Value.decodes_object_nil {literals : Value Literal} (h : literals.Decodes (.object [])) :
    literals = .object [] := by
  cases h with
  | object hnames _ => rw [List.map_eq_nil_iff.mp hnames]

theorem Value.decodes_object_cons {literals : Value Literal} {member : String × Value String}
    {members : List (String × Value String)} (h : literals.Decodes (.object (member :: members))) :
    ∃ key value rest, literals = .object ((key, value) :: rest) ∧
      Literal.text? key = some member.1 ∧ value.Decodes member.2 ∧
        Value.Decodes (.object rest) (.object members) := by
  cases h with
  | @object literals _ hnames hvalues =>
      cases literals with
      | nil => cases hnames
      | cons first rest =>
          obtain ⟨hname, hnames⟩ := List.cons.inj hnames
          obtain ⟨hvalue, hvalues⟩ := List.forall₂_cons.mp hvalues
          exact ⟨first.1, first.2, rest, rfl, hname, hvalue, .object hnames hvalues⟩

/-- Every numeral in the value is a number of the grammar. -/
inductive Value.Writable : Value String → Prop where
  | null : Writable .null
  | bool (value : Bool) : Writable (.bool value)
  | number {numeral : List Char} :
      (∀ rest, Number (numeral ++ rest) rest) → Writable (.number numeral)
  | string (text : String) : Writable (.string text)
  | list {items : List (Value String)} : (∀ item ∈ items, Writable item) → Writable (.list items)
  | object {members : List (String × Value String)} :
      (∀ member ∈ members, Writable member.2) → Writable (.object members)

/-- The value is written as a value of the grammar, whatever follows. -/
def Value.Written (value : Value String) : Prop :=
  ∀ rest, ∃ literals, Begins (value.write ++ rest) literals rest ∧ literals.Decodes value

theorem items_write {item : Value String} {items : List (Value String)}
    (hitems : ∀ value ∈ item :: items, value.Written) (rest : List Char) :
    ∃ literals, Items (item.write ++ (Value.writeItems items ++ rest)) literals rest ∧
      List.Forall₂ Value.Decodes literals (item :: items) := by
  rw [List.forall_mem_cons] at hitems
  induction items generalizing item with
  | nil =>
      obtain ⟨literals, hbegins, hdecodes⟩ := hitems.1 (']' :: rest)
      exact ⟨[literals], .last (.none _) hbegins (.none _), .cons hdecodes .nil⟩
  | cons next items ih =>
      obtain ⟨literals, hmore, hnext⟩ := ih (List.forall_mem_cons.mp hitems.2)
      have htail := hitems.1 (',' :: (next.write ++ (Value.writeItems items ++ rest)))
      obtain ⟨first, hbegins, hdecodes⟩ := htail
      have hwrite : Value.writeItems (next :: items) ++ rest =
          ',' :: (next.write ++ (Value.writeItems items ++ rest)) := by
        simp [Value.writeItems]
      rw [hwrite]
      exact ⟨first :: literals, .more (.none _) hbegins (.none _) hmore, .cons hdecodes hnext⟩

theorem written_list {items : List (Value String)} (hitems : ∀ item ∈ items, item.Written) :
    (Value.list items).Written := by
  intro rest
  cases items with
  | nil => exact ⟨.list [], .emptyList (.none _), .list .nil⟩
  | cons item items =>
      obtain ⟨literals, hliterals, hdecodes⟩ := items_write hitems rest
      have hwrite : (Value.list (item :: items)).write ++ rest =
          '[' :: (item.write ++ (Value.writeItems items ++ rest)) := by
        simp [Value.write]
      rw [hwrite]
      exact ⟨.list literals, .list hliterals, .list hdecodes⟩

/-- The member with its name, its colon and its value. -/
def writeMember (member : String × Value String) : List Char :=
  writeString member.1 ++ ':' :: member.2.write

theorem writeMembers_cons (member : String × Value String)
    (members : List (String × Value String)) (rest : List Char) :
    Value.writeMembers (member :: members) ++ rest =
      ',' :: (writeMember member ++ (Value.writeMembers members ++ rest)) := by
  obtain ⟨name, value⟩ := member
  simp [Value.writeMembers, writeMember]

theorem write_object_cons (member : String × Value String)
    (members : List (String × Value String)) (rest : List Char) :
    (Value.object (member :: members)).write ++ rest =
      '{' :: (writeMember member ++ (Value.writeMembers members ++ rest)) := by
  obtain ⟨name, value⟩ := member
  simp [Value.write, writeMember]

theorem writeMember_append (member : String × Value String) (rest : List Char) :
    writeMember member ++ rest =
      '"' :: (member.1.toList.flatMap writeChar ++ '"' :: ':' :: (member.2.write ++ rest)) := by
  rw [writeMember, List.append_assoc, writeString_append]
  rfl

theorem members_write {member : String × Value String} {members : List (String × Value String)}
    (hmembers : ∀ m ∈ member :: members, m.2.Written) (rest : List Char) :
    ∃ literals, Members (writeMember member ++ (Value.writeMembers members ++ rest)) literals rest ∧
      Value.Decodes (.object literals) (.object (member :: members)) := by
  rw [List.forall_mem_cons] at hmembers
  induction members generalizing member with
  | nil =>
      obtain ⟨value, hbegins, hdecodes⟩ := hmembers.1 ('}' :: rest)
      obtain ⟨key, hbody, htext⟩ := body_write member.1 (':' :: (member.2.write ++ '}' :: rest))
      have hlast : Members (writeMember member ++ '}' :: rest) [(key, value)] rest := by
        rw [writeMember_append]
        exact .last (.none _) hbody (.none _) (.none _) hbegins (.none _)
      exact ⟨[(key, value)], hlast, .object (by simp [htext]) (.cons hdecodes .nil)⟩
  | cons next members ih =>
      obtain ⟨literals, hmore, hnext⟩ := ih (List.forall_mem_cons.mp hmembers.2)
      rw [writeMembers_cons]
      generalize writeMember next ++ (Value.writeMembers members ++ rest) = tail at hmore ⊢
      obtain ⟨value, hbegins, hdecodes⟩ := hmembers.1 (',' :: tail)
      obtain ⟨key, hbody, htext⟩ := body_write member.1 (':' :: (member.2.write ++ ',' :: tail))
      cases hnext with
      | object hnames hvalues =>
          have hmembers : Members (writeMember member ++ ',' :: tail) ((key, value) :: literals)
              rest := by
            rw [writeMember_append]
            exact .more (.none _) hbody (.none _) (.none _) hbegins (.none _) hmore
          exact ⟨(key, value) :: literals, hmembers,
            .object (by simp [htext, hnames]) (.cons hdecodes hvalues)⟩

theorem written_object {members : List (String × Value String)}
    (hmembers : ∀ member ∈ members, member.2.Written) : (Value.object members).Written := by
  intro rest
  cases members with
  | nil => exact ⟨.object [], .emptyObject (.none _), .object rfl .nil⟩
  | cons member members =>
      obtain ⟨literals, hliterals, hdecodes⟩ := members_write hmembers rest
      rw [write_object_cons]
      exact ⟨.object literals, .object hliterals, hdecodes⟩

/-- A value is written as a text that is decoded to the same value. -/
theorem Value.Writable.written {value : Value String} (hwritable : value.Writable) :
    value.Written := by
  induction hwritable with
  | null => exact fun rest => ⟨.null, .null rest, .null⟩
  | bool value =>
      intro rest
      cases value with
      | true => exact ⟨.bool true, .true rest, .bool true⟩
      | false => exact ⟨.bool false, .false rest, .bool false⟩
  | number hnumber => exact fun rest => ⟨.number _, .number (hnumber rest), .number _⟩
  | string text =>
      intro rest
      obtain ⟨literal, hbody, htext⟩ := body_write text rest
      have hwrite : (Value.string text).write ++ rest =
          '"' :: (text.toList.flatMap writeChar ++ '"' :: rest) :=
        writeString_append text rest
      rw [hwrite]
      exact ⟨.string literal, .string hbody, .string htext⟩
  | list _ hitems => exact written_list hitems
  | object _ hmembers => exact written_object hmembers

theorem document_of_writable {value : Value String} (hwritable : value.Writable) :
    ∃ literals, Document value.text.toList literals ∧ literals.Decodes value := by
  obtain ⟨literals, hbegins, hdecodes⟩ := hwritable.written []
  rw [List.append_nil] at hbegins
  have htext : value.text.toList = value.write := by
    rw [Value.text, String.toList_ofList]
  rw [htext]
  exact ⟨literals, ⟨_, [], .none _, hbegins, .none _⟩, hdecodes⟩

/-- A value that is written around another one has the text of that one inside its own. -/
theorem Value.text_of_write {value inner : Value String} {front back : String}
    (hwrite : value.write = front.toList ++ (inner.write ++ back.toList)) :
    value.text = front ++ inner.text ++ back := by
  apply String.toList_injective
  rw [Value.text, Value.text, hwrite]
  simp only [String.toList_append, String.toList_ofList, List.append_assoc]

end CaskOrder.Json
