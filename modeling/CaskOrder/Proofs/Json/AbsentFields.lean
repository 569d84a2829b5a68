import CaskOrder.Proofs.Json.OneLine
import CaskOrder.Proofs.Json.Records

/-!
# Records whose field is absent

An object without the field of a record is read to its closing brace, whatever its members are,
and what comes of it is decided only there: the default of the field if it has one, and otherwise
the fault that the field is missing.

In an object that was written without the field, the brace is the end of the text, so this is
where the fault is reported.
-/

namespace CaskOrder.Json

open Grammar

namespace RecordForm

variable {form : RecordForm α} {means : Value Literal → α → Prop} {begun : Bool}
  {members : List (Literal × Value Literal)} {cs rest : List Char}

theorem memberRound_close (hclose : Blanks cs ('}' :: rest)) :
    (form.memberRound ⟨begun, none⟩).read cs =
      (form.absent (.missingField form.field) rest).map fun a => (.done a, rest) := by
  change (keyMark begun cs).andThen _ = _
  rw [keyMark_close.mpr hclose, Outcome.andThen_ok]

/-- Members that are passed over bring nothing, so the brace decides. -/
theorem memberRounds_absent (hvalue : form.value.Reads means)
    (hleft : MembersLeft begun cs members rest) (hmembers : ∀ member ∈ members, form.Passes member) :
    Reader.rounds form.memberRound ⟨begun, none⟩ cs =
      (form.absent (.missingField form.field) rest).map fun a => (a, rest) := by
  induction members generalizing begun cs with
  | nil =>
      rw [Reader.rounds_eq, memberRound_close (membersLeft_nil_iff.mp hleft)]
      cases form.absent (.missingField form.field) rest with
      | error fault => rfl
      | ok a => rfl
  | cons member members ih =>
      rcases membersLeft_cons_iff.mp hleft with ⟨mid, hmember, hleft⟩
      rw [List.forall_mem_cons] at hmembers
      have htakes : form.Takes means none member none := .other hmembers.1
      have hread := member_more_complete hvalue hmember htakes (ends_of_membersLeft hleft)
      rw [Reader.rounds_more hread]
      exact ih hleft hmembers.2

end RecordForm

theorem record_absent {form : RecordForm α} {means : Value Literal → α → Prop}
    (hvalue : form.value.Reads means) {members : List (Literal × Value Literal)}
    {cs rest : List Char} (hbegins : Begins cs (.object members) rest)
    (hmembers : ∀ member ∈ members, form.Passes member) :
    (record form).read cs =
      (form.absent (.missingField form.field) rest).map fun a => (a, rest) := by
  rcases begins_object_iff.mp hbegins with ⟨ds, hcs, hleft⟩
  change form.readForm cs = _
  rw [RecordForm.readForm, hcs, skipBlanks_cons rfl]
  exact RecordForm.memberRounds_absent hvalue hleft hmembers

/-! ## Objects that are written -/

theorem passes_of_decodes {form : RecordForm α} {literals : List (Literal × Value Literal)}
    {members : List (String × Value String)}
    (hdecodes : Value.Decodes (.object literals) (.object members))
    (hmembers : ∀ member ∈ members, member.1 ≠ form.field) :
    ∀ member ∈ literals, form.Passes member := by
  induction members generalizing literals with
  | nil =>
      cases Value.decodes_object_nil hdecodes
      simp
  | cons member members ih =>
      rcases Value.decodes_object_cons hdecodes with ⟨key, value, rest, heq, hkey, -, hrest⟩
      cases heq
      rw [List.forall_mem_cons] at hmembers ⊢
      exact ⟨⟨member.1, hkey, hmembers.1⟩, ih hrest hmembers.2⟩

section

variable {form : RecordForm α} {means : Value Literal → α → Prop}
  {members : List (String × Value String)}

theorem record_write_absent (hvalue : form.value.Reads means)
    (hwritable : (Value.object members).Writable)
    (hmembers : ∀ member ∈ members, member.1 ≠ form.field) :
    (record form).read (Value.object members).text.toList =
      (form.absent (.missingField form.field) []).map fun a => (a, []) := by
  rcases hwritable.written [] with ⟨value, hbegins, hdecodes⟩
  rw [List.append_nil] at hbegins
  rw [Value.text, String.toList_ofList]
  cases hdecodes with
  | object hnames hvalues =>
      have hdecodes := Value.Decodes.object hnames hvalues
      exact record_absent hvalue hbegins (passes_of_decodes hdecodes hmembers)

/-- The default of an absent field is taken. -/
theorem parse_of_default (hvalue : form.value.Reads means)
    (hwritable : (Value.object members).Writable)
    (hmembers : ∀ member ∈ members, member.1 ≠ form.field) {a : α}
    (hdefault : form.default? = some a) :
    (record form).parse (Value.object members).text = .ok a := by
  have hread := record_write_absent hvalue hwritable hmembers
  rw [RecordForm.absent_eq_ok_iff.mpr hdefault] at hread
  rw [Reader.parse, Reader.readWhole, hread]
  rfl

/-- An absent field that has no default is reported as missing, at the end of the text. -/
theorem parse_of_no_default (hvalue : form.value.Reads means)
    (hwritable : (Value.object members).Writable)
    (hmembers : ∀ member ∈ members, member.1 ≠ form.field) (hdefault : form.default? = none) :
    (record form).parse (Value.object members).text =
      .error ⟨.missingField form.field, ⟨1, (Value.object members).text.utf8ByteSize⟩⟩ := by
  have hread := record_write_absent hvalue hwritable hmembers
  have habsent : form.absent (.missingField form.field) [] =
      .error (.here (.missingField form.field) []) := by
    rw [RecordForm.absent, hdefault]
  have hline : OneLine (Value.object members).text.toList := by
    rw [Value.text, String.toList_ofList]
    exact hwritable.oneLine
  rw [habsent] at hread
  exact hline.parse_eq_error hread rfl

end

end CaskOrder.Json
