import CaskOrder.Json.Sequence
import CaskOrder.Json.Skip

/-!
# Records of one field

A record of one field is written as an object in which the name of the field occurs at
most once and every other key is passed over, or as a list of at most one item, which is
the value of the field.  Where the field is absent, its default is taken if it has one.

A field that is absent, or written twice, is found out where the record ends: the fault
is placed behind its closing bracket.
-/

namespace CaskOrder.Json

/-- How a record of one field is written. -/
structure RecordForm (α : Type) where
  title : String
  field : String
  value : Reader α
  default? : Option α

def firstKey (cs : List Char) : Outcome (Option String) :=
  match skipBlanks cs with
  | [] => .error (.next (.unexpectedEnd .object) [])
  | '}' :: rest => .ok (none, rest)
  | '"' :: rest => (stringBody.read rest).andThen fun key rest => .ok (some key, rest)
  | rest => .error (.next .keyNotString rest)

def nextKey (cs : List Char) : Outcome (Option String) :=
  match skipBlanks cs with
  | [] => .error (.next (.unexpectedEnd .object) [])
  | '}' :: rest => .ok (none, rest)
  | ',' :: rest =>
    match skipBlanks rest with
    | [] => .error (.next (.unexpectedEnd .value) [])
    | '"' :: rest => (stringBody.read rest).andThen fun key rest => .ok (some key, rest)
    | '}' :: rest => .error (.next .trailingComma ('}' :: rest))
    | rest => .error (.next .keyNotString rest)
  | rest => .error (.next .expectedObjectComma rest)

/-- The end of a list that is to have no further item. -/
def lastItem (cs : List Char) : Outcome Unit :=
  match skipBlanks cs with
  | [] => .error (.next (.unexpectedEnd .list) [])
  | ']' :: rest => .ok ((), rest)
  | ',' :: rest =>
    match skipBlanks rest with
    | ']' :: rest => .error (.next .trailingComma (']' :: rest))
    | rest => .error (.next .trailingCharacters rest)
  | rest => .error (.next .trailingCharacters rest)

/-- The text behind the closing brace, if the brace comes next. -/
def pastBrace (cs : List Char) : List Char :=
  match skipBlanks cs with
  | '}' :: rest => rest
  | rest => rest

theorem stringKey_shrinks :
    Shrinks fun cs => (stringBody.read cs).andThen fun key rest => .ok (some key, rest) :=
  stringBody.shrinks.andThen fun key => neverGrows_ok (some key)

theorem firstKey_shrinks : Shrinks firstKey := by
  intro cs key? rest h
  simp only [firstKey] at h
  split at h
  · simp at h
  · next rest' heq =>
    cases h
    exact length_lt_of_skipBlanks heq
  · next rest' heq =>
    exact Nat.lt_trans (stringKey_shrinks h) (length_lt_of_skipBlanks heq)
  · simp at h

theorem nextKey_shrinks : Shrinks nextKey := by
  intro cs key? rest h
  simp only [nextKey] at h
  split at h
  · simp at h
  · next rest' heq =>
    cases h
    exact length_lt_of_skipBlanks heq
  · next tail heq =>
    have hcomma := length_lt_of_skipBlanks heq
    split at h
    · simp at h
    · next rest' hquote =>
      have hkey := stringKey_shrinks h
      have hstart := length_lt_of_skipBlanks hquote
      omega
    · simp at h
    · simp at h
  · simp at h

theorem lastItem_shrinks : Shrinks lastItem := by
  intro cs _ rest h
  simp only [lastItem] at h
  split at h
  · simp at h
  · next rest' heq =>
    cases h
    exact length_lt_of_skipBlanks heq
  · split at h <;> simp at h
  · simp at h

namespace RecordForm

/-- The default, in a record that ends before the given rest. -/
def absent (form : RecordForm α) (cause : Cause) (rest : List Char) : Except Fault α :=
  match form.default? with
  | some a => .ok a
  | none => .error (.here cause rest)

/-- What has been read of an object: nothing, or the members up to here and with them
perhaps the field. -/
structure Progress (α : Type) where
  begun : Bool
  found? : Option α

def member (form : RecordForm α) (progress : Progress α) (cs : List Char) :
    Outcome (Turn (Progress α) α) :=
  (if progress.begun then nextKey cs else firstKey cs).andThen fun key? rest =>
    match key? with
    | none =>
      match progress.found? with
      | some a => .ok (.done a, rest)
      | none => (form.absent (.missingField form.field) rest).map fun a => (.done a, rest)
    | some key =>
      if key = form.field then
        if progress.found?.isSome then
          .error (.here (.duplicateField form.field) (pastBrace rest))
        else
          (colon rest).andThen fun _ rest =>
            (form.value.read rest).andThen fun a rest => .ok (.more ⟨true, some a⟩, rest)
      else
        (colon rest).andThen fun _ rest =>
          (skipValue.read rest).andThen fun _ rest =>
            .ok (.more ⟨true, progress.found?⟩, rest)

theorem member_shrinks (form : RecordForm α) (progress : Progress α) :
    Shrinks (form.member progress) := by
  have hkey : Shrinks fun cs => if progress.begun then nextKey cs else firstKey cs := by
    cases progress.begun with
    | false => exact firstKey_shrinks
    | true => exact nextKey_shrinks
  refine hkey.andThen fun key? => ?_
  intro cs turn rest h
  cases key? with
  | none =>
    simp only at h
    split at h
    · exact neverGrows_ok _ h
    · exact neverGrows_map _ _ h
  | some key =>
    simp only at h
    split at h
    · split at h
      · simp at h
      · refine colon_shrinks.neverGrows.andThen (fun _ => ?_) h
        exact form.value.shrinks.neverGrows.andThen fun _ => neverGrows_ok _
    · refine colon_shrinks.neverGrows.andThen (fun _ => ?_) h
      exact skipValue.shrinks.neverGrows.andThen fun _ => neverGrows_ok _

def members (form : RecordForm α) : Reader α :=
  .loop (fun progress => ⟨form.member progress, form.member_shrinks progress⟩) ⟨false, none⟩

def items (form : RecordForm α) (cs : List Char) : Outcome α :=
  (firstItem cs).andThen fun more rest =>
    if more then
      (form.value.read rest).andThen fun a rest =>
        (lastItem rest).andThen fun _ rest => .ok (a, rest)
    else (form.absent (.emptyRecord form.title) rest).map fun a => (a, rest)

theorem items_neverGrows (form : RecordForm α) : NeverGrows form.items := by
  intro cs a rest h
  obtain ⟨more, middle, hfirst, h⟩ := Outcome.andThen_eq_ok.mp h
  refine Nat.le_trans ?_ (firstItem_length hfirst).1
  cases more with
  | false => exact neverGrows_map _ _ h
  | true =>
    refine form.value.shrinks.neverGrows.andThen (fun _ => ?_) h
    exact lastItem_shrinks.neverGrows.andThen fun _ => neverGrows_ok _

def readForm (form : RecordForm α) (cs : List Char) : Outcome α :=
  match skipBlanks cs with
  | [] => .error (.next (.unexpectedEnd .value) [])
  | '[' :: rest => form.items rest
  | '{' :: rest => form.members.read rest
  | rest => .error (mismatch (.record form.title) rest)

theorem readForm_shrinks (form : RecordForm α) : Shrinks form.readForm := by
  intro cs a rest h
  simp only [readForm] at h
  split at h
  · simp at h
  · next rest' heq =>
    exact Nat.lt_of_le_of_lt (form.items_neverGrows h) (length_lt_of_skipBlanks heq)
  · next rest' heq =>
    exact Nat.lt_trans (form.members.shrinks h) (length_lt_of_skipBlanks heq)
  · simp at h

end RecordForm

def record (form : RecordForm α) : Reader α :=
  ⟨form.readForm, form.readForm_shrinks⟩

end CaskOrder.Json
