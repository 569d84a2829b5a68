import CaskOrder.Proofs.Config.Reload

/-!
# Stanzas and groups as texts

A stanza is read from a string literal with nothing but blanks around it, and a group from a
list of such literals.  Neither is checked any further: a name may be empty, and a group may be
empty or repeat a stanza.

What is written is a text of this kind, whatever characters are in the names, so it is read as
what was written.
-/

namespace CaskOrder

open Json (Value)
open Json.Grammar (Document)

theorem Stanza.parse_eq_ok_iff {text : String} {stanza : Stanza} :
    Stanza.reader.parse text = .ok stanza ↔
      ∃ value, Document text.toList value ∧ value.IsString stanza.name :=
  Json.parse_eq_ok_iff Stanza.reader_reads

theorem Group.parse_eq_ok_iff {text : String} {group : Group} :
    Group.reader.parse text = .ok group ↔
      ∃ value, Document text.toList value ∧
        value.IsList (fun item (stanza : Stanza) => item.IsString stanza.name) group :=
  Json.parse_eq_ok_iff Group.reader_reads

theorem Stanza.parse_text (stanza : Stanza) :
    Stanza.reader.parse stanza.toValue.text = .ok stanza := by
  rcases Json.document_of_writable stanza.toValue_writable with ⟨value, hdocument, hdecodes⟩
  exact Stanza.parse_eq_ok_iff.mpr ⟨value, hdocument, isString_of_decodes hdecodes⟩

theorem Group.parse_text (group : Group) :
    Group.reader.parse group.toValue.text = .ok group := by
  rcases Json.document_of_writable group.toValue_writable with ⟨value, hdocument, hdecodes⟩
  exact Group.parse_eq_ok_iff.mpr ⟨value, hdocument, Group.isList_of_decodes hdecodes⟩

/-- A text is read as a stanza if and only if it is a string literal that stands for its name,
and as a group if and only if it is a list of literals that stand for the names of its members.
Written stanzas and groups are read as they were. -/
theorem stanzas_and_groups_read_back :
    (∀ text stanza, Stanza.reader.parse text = .ok stanza ↔
        ∃ value, Document text.toList value ∧ value.IsString stanza.name) ∧
      (∀ text group, Group.reader.parse text = .ok group ↔
        ∃ value, Document text.toList value ∧
          value.IsList (fun item (stanza : Stanza) => item.IsString stanza.name) group) ∧
      (∀ stanza : Stanza, Stanza.reader.parse stanza.toValue.text = .ok stanza) ∧
      ∀ group : Group, Group.reader.parse group.toValue.text = .ok group :=
  ⟨fun _ _ => Stanza.parse_eq_ok_iff, fun _ _ => Group.parse_eq_ok_iff, Stanza.parse_text,
    Group.parse_text⟩

/-- Two halves of a character are read as one character, and a half alone is not read. -/
example :
    (Stanza.reader.parse " \"\\ud83d\\ude00\"\n").toOption = some ⟨"😀"⟩ ∧
      (Stanza.reader.parse "\"\\ud83d\"").toOption = none ∧
      (Group.reader.parse "[\"a\", \"\", \"a\"]").toOption = some [⟨"a"⟩, ⟨""⟩, ⟨"a"⟩] := by
  decide +kernel

end CaskOrder
