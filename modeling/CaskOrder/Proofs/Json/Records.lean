import CaskOrder.Json.Record
import CaskOrder.Proofs.Json.Reading

/-!
# Records that are read

The members of an object are read one after the other.  One of them may bring the field,
and all others are passed over; what has been gathered when the brace is reached is the
record.  Seen from the whole object, this means that the field occurs once, or that it
does not occur and has a default.
-/

namespace CaskOrder.Json

open Grammar

namespace RecordForm

/-- A member whose key is not the name of the field.  It may have any value. -/
def Passes (form : RecordForm α) (member : Literal × Value Literal) : Prop :=
  ∃ name, member.1.text? = some name ∧ name ≠ form.field

/-- The values that are a record of the form, with what the record holds. -/
inductive Holds (form : RecordForm α) (means : Value Literal → α → Prop) :
    Value Literal → α → Prop where
  | keyed {before after : List (Literal × Value Literal)} {key : Literal} {value : Value Literal}
      {a : α} :
      key.text? = some form.field → means value a →
      (∀ member ∈ before ++ after, form.Passes member) →
      Holds form means (.object (before ++ (key, value) :: after)) a
  | unkeyed {members : List (Literal × Value Literal)} {a : α} :
      form.default? = some a → (∀ member ∈ members, form.Passes member) →
      Holds form means (.object members) a
  | listed {value : Value Literal} {a : α} : means value a → Holds form means (.list [value]) a
  | empty {a : α} : form.default? = some a → Holds form means (.list []) a

/-- What has been gathered before a member and behind it. -/
inductive Takes (form : RecordForm α) (means : Value Literal → α → Prop) :
    Option α → Literal × Value Literal → Option α → Prop where
  | field {key : Literal} {value : Value Literal} {a : α} :
      key.text? = some form.field → means value a → Takes form means none (key, value) (some a)
  | other {found? : Option α} {member : Literal × Value Literal} :
      form.Passes member → Takes form means found? member found?

/-- What is gathered from the members that are left. -/
inductive Gathers (form : RecordForm α) (means : Value Literal → α → Prop) :
    Option α → List (Literal × Value Literal) → α → Prop where
  | found (a : α) : Gathers form means (some a) [] a
  | absent {a : α} : form.default? = some a → Gathers form means none [] a
  | more {found? found?' : Option α} {member : Literal × Value Literal}
      {members : List (Literal × Value Literal)} {a : α} :
      Takes form means found? member found?' → Gathers form means found?' members a →
      Gathers form means found? (member :: members) a

variable {form : RecordForm α} {means : Value Literal → α → Prop}
  {members : List (Literal × Value Literal)} {a b : α}

theorem gathers_some_iff :
    form.Gathers means (some b) members a ↔ a = b ∧ ∀ member ∈ members, form.Passes member := by
  induction members with
  | nil =>
      constructor
      · intro h
        cases h
        exact ⟨rfl, by simp⟩
      · intro h
        rw [h.1]
        exact .found b
  | cons member members ih =>
      rw [List.forall_mem_cons]
      constructor
      · intro h
        cases h with
        | more htakes hgathers =>
            cases htakes with
            | other hpasses =>
                obtain ⟨ha, hmembers⟩ := ih.mp hgathers
                exact ⟨ha, hpasses, hmembers⟩
      · intro h
        obtain ⟨ha, hpasses, hmembers⟩ := h
        exact .more (.other hpasses) (ih.mpr ⟨ha, hmembers⟩)

theorem holds_object_of_gathers (h : form.Gathers means none members a) :
    form.Holds means (.object members) a := by
  induction members with
  | nil =>
      cases h with
      | absent hdefault => exact .unkeyed hdefault (by simp)
  | cons member members ih =>
      cases h with
      | more htakes hgathers =>
          cases htakes with
          | field hkey hmeans =>
              obtain ⟨ha, hmembers⟩ := gathers_some_iff.mp hgathers
              rw [← ha] at hmeans
              change form.Holds means (.object ([] ++ _ :: members)) a
              exact .keyed hkey hmeans hmembers
          | other hpasses =>
              cases ih hgathers with
              | keyed hkey hmeans hmembers =>
                  rw [← List.cons_append]
                  apply Holds.keyed hkey hmeans
                  rw [List.cons_append, List.forall_mem_cons]
                  exact ⟨hpasses, hmembers⟩
              | unkeyed hdefault hmembers =>
                  apply Holds.unkeyed hdefault
                  rw [List.forall_mem_cons]
                  exact ⟨hpasses, hmembers⟩

theorem gathers_of_passes (hmembers : ∀ member ∈ members, form.Passes member)
    {found? : Option α} {after : List (Literal × Value Literal)}
    (hafter : form.Gathers means found? after a) :
    form.Gathers means found? (members ++ after) a := by
  induction members with
  | nil => exact hafter
  | cons member members ih =>
      rw [List.forall_mem_cons] at hmembers
      exact .more (.other hmembers.1) (ih hmembers.2)

theorem gathers_of_holds_object (h : form.Holds means (.object members) a) :
    form.Gathers means none members a := by
  cases h with
  | keyed hkey hmeans hmembers =>
      rw [List.forall_mem_append] at hmembers
      apply gathers_of_passes hmembers.1
      exact .more (.field hkey hmeans) (gathers_some_iff.mpr ⟨rfl, hmembers.2⟩)
  | unkeyed hdefault hmembers =>
      rw [← List.append_nil members]
      exact gathers_of_passes hmembers (.absent hdefault)

end RecordForm

/-! ## Keys -/

def keyMark (begun : Bool) (cs : List Char) : Outcome (Option String) :=
  if begun then nextKey cs else firstKey cs

theorem firstKey_eq_close_iff {cs rest : List Char} :
    firstKey cs = .ok (none, rest) ↔ skipBlanks cs = '}' :: rest := by
  unfold firstKey
  constructor
  · intro h
    split at h
    · cases h
    · next heq =>
      cases h
      exact heq
    · obtain ⟨key, es, _, hresult⟩ := Outcome.andThen_eq_ok.mp h
      cases hresult
    · cases h
  · intro h
    rw [h]
    rfl

theorem firstKey_eq_key_iff {cs rest : List Char} {name : String} :
    firstKey cs = .ok (some name, rest) ↔
      ∃ ds, skipBlanks cs = '"' :: ds ∧ stringBody.read ds = .ok (name, rest) := by
  unfold firstKey
  constructor
  · intro h
    split at h
    · cases h
    · cases h
    · next ds heq =>
      obtain ⟨key, es, hread, hresult⟩ := Outcome.andThen_eq_ok.mp h
      cases hresult
      exact ⟨ds, heq, hread⟩
    · cases h
  · intro h
    obtain ⟨ds, hskip, hread⟩ := h
    rw [hskip]
    simp [hread]

theorem nextKey_eq_close_iff {cs rest : List Char} :
    nextKey cs = .ok (none, rest) ↔ skipBlanks cs = '}' :: rest := by
  unfold nextKey
  constructor
  · intro h
    split at h
    · cases h
    · next heq =>
      cases h
      exact heq
    · split at h
      · cases h
      · obtain ⟨key, es, _, hresult⟩ := Outcome.andThen_eq_ok.mp h
        cases hresult
      · cases h
      · cases h
    · cases h
  · intro h
    rw [h]
    rfl

theorem nextKey_eq_key_iff {cs rest : List Char} {name : String} :
    nextKey cs = .ok (some name, rest) ↔
      ∃ ds es, skipBlanks cs = ',' :: ds ∧ skipBlanks ds = '"' :: es ∧
        stringBody.read es = .ok (name, rest) := by
  unfold nextKey
  constructor
  · intro h
    split at h
    · cases h
    · cases h
    · next ds hcomma =>
      split at h
      · cases h
      · next es hquote =>
        obtain ⟨key, fs, hread, hresult⟩ := Outcome.andThen_eq_ok.mp h
        cases hresult
        exact ⟨ds, es, hcomma, hquote, hread⟩
      · cases h
      · cases h
    · cases h
  · intro h
    obtain ⟨ds, es, hcomma, hquote, hread⟩ := h
    rw [hcomma]
    simp only [hquote, hread, Outcome.andThen_ok]

theorem keyMark_close {begun : Bool} {cs rest : List Char} :
    keyMark begun cs = .ok (none, rest) ↔ Blanks cs ('}' :: rest) := by
  rw [blanks_cons_iff rfl]
  cases begun with
  | false => exact firstKey_eq_close_iff
  | true => exact nextKey_eq_close_iff

theorem keyMark_key {begun : Bool} {cs rest : List Char} {name : String} :
    keyMark begun cs = .ok (some name, rest) ↔
      ∃ ds es, Behind begun cs ds ∧ Blanks ds ('"' :: es) ∧
        stringBody.read es = .ok (name, rest) := by
  have hquote (ds es : List Char) : Blanks ds ('"' :: es) ↔ skipBlanks ds = '"' :: es :=
    blanks_cons_iff rfl
  have hcomma (ds : List Char) : Behind true cs ds ↔ skipBlanks cs = ',' :: ds :=
    blanks_cons_iff rfl
  cases begun with
  | false => simp [keyMark, Behind, hquote, firstKey_eq_key_iff]
  | true => simp only [keyMark, if_true, hquote, hcomma, nextKey_eq_key_iff]

/-! ## Members -/

/-- A member of the grammar, with the comma before it unless it is the first one. -/
def MemberAt (begun : Bool) (cs : List Char) (key : Literal) (value : Value Literal)
    (rest : List Char) : Prop :=
  ∃ ds es fs gs hs, Behind begun cs ds ∧ Blanks ds ('"' :: es) ∧ Body es key fs ∧
    Blanks fs (':' :: gs) ∧ Blanks gs hs ∧ Begins hs value rest

/-- What is left of an object: its closing brace, or further members and the brace. -/
def MembersLeft (begun : Bool) (cs : List Char) (members : List (Literal × Value Literal))
    (rest : List Char) : Prop :=
  (Blanks cs ('}' :: rest) ∧ members = []) ∨
    ∃ ds, Behind begun cs ds ∧ Members ds members rest

theorem membersLeft_nil_iff {begun : Bool} {cs rest : List Char} :
    MembersLeft begun cs [] rest ↔ Blanks cs ('}' :: rest) := by
  constructor
  · intro h
    rcases h with ⟨hclose, -⟩ | ⟨ds, -, hmembers⟩
    · exact hclose
    · cases hmembers
  · intro hclose
    exact .inl ⟨hclose, rfl⟩

theorem membersLeft_cons_iff {begun : Bool} {cs rest : List Char} {key : Literal}
    {value : Value Literal} {members : List (Literal × Value Literal)} :
    MembersLeft begun cs ((key, value) :: members) rest ↔
      ∃ mid, MemberAt begun cs key value mid ∧ MembersLeft true mid members rest := by
  constructor
  · intro h
    rcases h with ⟨-, hmembers⟩ | ⟨ds, hbehind, hmembers⟩
    · cases hmembers
    · cases hmembers with
      | last hquote hbody hcolon hblanks hbegins hclose =>
          exact ⟨_, ⟨ds, _, _, _, _, hbehind, hquote, hbody, hcolon, hblanks, hbegins⟩,
            .inl ⟨hclose, rfl⟩⟩
      | more hquote hbody hcolon hblanks hbegins hcomma hmembers =>
          exact ⟨_, ⟨ds, _, _, _, _, hbehind, hquote, hbody, hcolon, hblanks, hbegins⟩,
            .inr ⟨_, hcomma, hmembers⟩⟩
  · intro h
    obtain ⟨mid, hmember, hleft⟩ := h
    obtain ⟨ds, es, fs, gs, hs, hbehind, hquote, hbody, hcolon, hblanks, hbegins⟩ := hmember
    rcases hleft with ⟨hclose, hmembers⟩ | ⟨is, hcomma, hmembers⟩
    · rw [hmembers]
      exact .inr ⟨ds, hbehind, .last hquote hbody hcolon hblanks hbegins hclose⟩
    · exact .inr ⟨ds, hbehind, .more hquote hbody hcolon hblanks hbegins hcomma hmembers⟩

/-- The value of a member is not a numeral that could be read on. -/
theorem ends_of_membersLeft {cs rest : List Char} {members : List (Literal × Value Literal)}
    (hleft : MembersLeft true cs members rest) : Ends cs := by
  rcases hleft with ⟨hclose, -⟩ | ⟨ds, hcomma, -⟩
  · exact ends_of_blanks hclose (ends_cons (by simp) rest)
  · exact ends_of_blanks hcomma (ends_cons (by simp) ds)

theorem begins_object_iff {cs rest : List Char} {members : List (Literal × Value Literal)} :
    Begins cs (.object members) rest ↔
      ∃ ds, cs = '{' :: ds ∧ MembersLeft false ds members rest := by
  constructor
  · intro h
    cases h with
    | emptyObject hclose => exact ⟨_, rfl, .inl ⟨hclose, rfl⟩⟩
    | object hmembers => exact ⟨_, rfl, .inr ⟨_, rfl, hmembers⟩⟩
  · intro h
    obtain ⟨ds, hcs, hleft⟩ := h
    rw [hcs]
    rcases hleft with ⟨hclose, hmembers⟩ | ⟨es, hds, hmembers⟩
    · rw [hmembers]
      exact .emptyObject hclose
    · cases hds
      exact .object hmembers

namespace RecordForm

variable {form : RecordForm α} {means : Value Literal → α → Prop} {progress : Progress α}
  {cs mid rest : List Char} {a : α}

theorem absent_eq_ok_iff {cause : Cause} :
    form.absent cause rest = .ok a ↔ form.default? = some a := by
  unfold absent
  cases form.default? with
  | none => simp
  | some b => simp

theorem member_done_iff :
    form.member progress cs = .ok (.done a, rest) ↔
      Blanks cs ('}' :: rest) ∧ form.Gathers means progress.found? [] a := by
  obtain ⟨begun, found?⟩ := progress
  have hclose : Blanks cs ('}' :: rest) ↔ keyMark begun cs = .ok (none, rest) := keyMark_close.symm
  rw [hclose]
  constructor
  · intro h
    obtain ⟨key?, mid, hkey, h⟩ := Outcome.andThen_eq_ok.mp h
    cases key? with
    | none =>
        cases found? with
        | none =>
            simp only at h
            cases habsent : form.absent (.missingField form.field) mid with
            | error fault => simp [habsent, Except.map] at h
            | ok b =>
                simp only [habsent, Except.map] at h
                cases h
                exact ⟨hkey, .absent (absent_eq_ok_iff.mp habsent)⟩
        | some b =>
            cases h
            exact ⟨hkey, .found a⟩
    | some key =>
        simp only at h
        split at h
        · split at h
          · cases h
          · obtain ⟨_, _, _, h⟩ := Outcome.andThen_eq_ok.mp h
            obtain ⟨_, _, _, h⟩ := Outcome.andThen_eq_ok.mp h
            cases h
        · obtain ⟨_, _, _, h⟩ := Outcome.andThen_eq_ok.mp h
          obtain ⟨_, _, _, h⟩ := Outcome.andThen_eq_ok.mp h
          cases h
  · intro h
    obtain ⟨hkey, hgathers⟩ := h
    change (keyMark begun cs).andThen _ = _
    rw [hkey, Outcome.andThen_ok]
    cases hgathers with
    | found => rfl
    | absent hdefault =>
        simp only [absent_eq_ok_iff.mpr hdefault]
        rfl

theorem member_more_sound (hvalue : form.value.Reads means) {progress' : Progress α}
    (h : form.member progress cs = .ok (.more progress', mid)) :
    ∃ key value, MemberAt progress.begun cs key value mid ∧
      form.Takes means progress.found? (key, value) progress'.found? ∧
      progress'.begun = true := by
  obtain ⟨key?, fs, hkey, h⟩ := Outcome.andThen_eq_ok.mp h
  cases key? with
  | none =>
      simp only at h
      split at h
      · cases h
      · cases habsent : form.absent (.missingField form.field) fs with
        | error fault => simp [habsent, Except.map] at h
        | ok b => simp [habsent, Except.map] at h
  | some name =>
      obtain ⟨ds, es, hbehind, hquote, hname⟩ := keyMark_key.mp hkey
      obtain ⟨key, hbody, htext⟩ := stringBody_eq_ok_iff.mp hname
      simp only at h
      split at h
      · next hfield =>
        split at h
        · cases h
        · next hfound =>
          obtain ⟨_, gs, hcolon, h⟩ := Outcome.andThen_eq_ok.mp h
          obtain ⟨a, mid, hread, h⟩ := Outcome.andThen_eq_ok.mp h
          cases h
          obtain ⟨hs, value, hblanks, hbegins, hmeans⟩ := (hvalue _ _ _).mp hread
          have hnone : progress.found? = none := by simpa using hfound
          rw [hfield] at htext
          rw [hnone]
          exact ⟨key, value,
            ⟨ds, es, fs, gs, hs, hbehind, hquote, hbody, colon_eq_ok_iff.mp hcolon, hblanks,
              hbegins⟩,
            .field htext hmeans, rfl⟩
      · next hother =>
        obtain ⟨_, gs, hcolon, h⟩ := Outcome.andThen_eq_ok.mp h
        obtain ⟨_, mid, hread, h⟩ := Outcome.andThen_eq_ok.mp h
        cases h
        obtain ⟨hs, value, hblanks, hbegins⟩ := skipValue_sound hread
        exact ⟨key, value,
          ⟨ds, es, fs, gs, hs, hbehind, hquote, hbody, colon_eq_ok_iff.mp hcolon, hblanks,
            hbegins⟩,
          .other ⟨name, htext, hother⟩, rfl⟩

theorem member_more_complete (hvalue : form.value.Reads means) {begun : Bool}
    {found? found?' : Option α} {key : Literal} {value : Value Literal}
    (hmember : MemberAt begun cs key value mid)
    (htakes : form.Takes means found? (key, value) found?') (hends : Ends mid) :
    form.member ⟨begun, found?⟩ cs = .ok (.more ⟨true, found?'⟩, mid) := by
  obtain ⟨ds, es, fs, gs, hs, hbehind, hquote, hbody, hcolon, hblanks, hbegins⟩ := hmember
  have hkey {name : String} (htext : key.text? = some name) :
      keyMark begun cs = .ok (some name, fs) :=
    keyMark_key.mpr ⟨ds, es, hbehind, hquote, stringBody_eq_ok_iff.mpr ⟨key, hbody, htext⟩⟩
  change (keyMark begun cs).andThen _ = _
  cases htakes with
  | field htext hmeans =>
      have hread := (hvalue _ _ _).mpr ⟨hs, value, hblanks, hbegins, hmeans⟩
      rw [hkey htext, Outcome.andThen_ok]
      simp only [if_true, Option.isSome_none, Bool.false_eq_true, if_false]
      rw [colon_eq_ok_iff.mpr hcolon, Outcome.andThen_ok, hread, Outcome.andThen_ok]
  | other hpasses =>
      obtain ⟨name, htext, hother⟩ := hpasses
      have hread := skipValue_complete hblanks hbegins hends
      rw [hkey htext, Outcome.andThen_ok]
      simp only [if_neg hother]
      rw [colon_eq_ok_iff.mpr hcolon, Outcome.andThen_ok, hread, Outcome.andThen_ok]

def memberRound (form : RecordForm α) (progress : Progress α) : Reader (Turn (Progress α) α) :=
  ⟨form.member progress, form.member_shrinks progress⟩

theorem memberRounds_sound (hvalue : form.value.Reads means)
    (h : Reader.rounds form.memberRound progress cs = .ok (a, rest)) :
    ∃ members, MembersLeft progress.begun cs members rest ∧
      form.Gathers means progress.found? members a := by
  apply Reader.rounds_induction (motive := fun (progress : Progress α) cs =>
    ∃ members, MembersLeft progress.begun cs members rest ∧
      form.Gathers means progress.found? members a) _ _ h
  · intro progress cs hread
    obtain ⟨hclose, hgathers⟩ := member_done_iff.mp hread
    exact ⟨[], membersLeft_nil_iff.mpr hclose, hgathers⟩
  · intro progress cs progress' mid hread hleft
    obtain ⟨members, hleft, hgathers⟩ := hleft
    obtain ⟨key, value, hmember, htakes, hbegun⟩ := member_more_sound hvalue hread
    rw [hbegun] at hleft
    exact ⟨(key, value) :: members, membersLeft_cons_iff.mpr ⟨mid, hmember, hleft⟩,
      .more htakes hgathers⟩

theorem memberRounds_complete (hvalue : form.value.Reads means)
    {members : List (Literal × Value Literal)} {begun : Bool} {found? : Option α}
    (hleft : MembersLeft begun cs members rest) (hgathers : form.Gathers means found? members a) :
    Reader.rounds form.memberRound ⟨begun, found?⟩ cs = .ok (a, rest) := by
  induction members generalizing begun found? cs with
  | nil =>
      apply Reader.rounds_done
      exact member_done_iff.mpr ⟨membersLeft_nil_iff.mp hleft, hgathers⟩
  | cons member members ih =>
      obtain ⟨mid, hmember, hleft⟩ := membersLeft_cons_iff.mp hleft
      cases hgathers with
      | more htakes hgathers =>
          have hends := ends_of_membersLeft hleft
          have hread := member_more_complete hvalue hmember htakes hends
          rw [Reader.rounds_more hread]
          exact ih hleft hgathers

theorem members_eq_ok_iff (hvalue : form.value.Reads means) :
    form.members.read cs = .ok (a, rest) ↔
      ∃ members, Begins ('{' :: cs) (.object members) rest ∧
        form.Holds means (.object members) a := by
  constructor
  · intro h
    obtain ⟨members, hleft, hgathers⟩ := memberRounds_sound hvalue h
    exact ⟨members, begins_object_iff.mpr ⟨cs, rfl, hleft⟩, holds_object_of_gathers hgathers⟩
  · intro h
    obtain ⟨members, hbegins, hholds⟩ := h
    obtain ⟨ds, hds, hleft⟩ := begins_object_iff.mp hbegins
    cases hds
    exact memberRounds_complete hvalue hleft (gathers_of_holds_object hholds)

theorem lastItem_eq_ok_iff : lastItem cs = .ok ((), rest) ↔ Blanks cs (']' :: rest) := by
  rw [blanks_cons_iff rfl]
  unfold lastItem
  constructor
  · intro h
    split at h
    · cases h
    · next heq =>
      cases h
      exact heq
    · split at h <;> cases h
    · cases h
  · intro h
    rw [h]
    rfl

theorem items_eq_ok_iff (hvalue : form.value.Reads means) :
    form.items cs = .ok (a, rest) ↔
      ∃ items, Begins ('[' :: cs) (.list items) rest ∧ form.Holds means (.list items) a := by
  constructor
  · intro h
    obtain ⟨more, es, hfirst, h⟩ := Outcome.andThen_eq_ok.mp h
    cases more with
    | false =>
        have hclose := (blanks_cons_iff rfl).mpr (firstItem_eq_close_iff.mp hfirst)
        cases habsent : form.absent (.emptyRecord form.title) es with
        | error fault => simp [habsent, Except.map] at h
        | ok b =>
            simp only [habsent, Except.map] at h
            cases h
            exact ⟨[], .emptyList hclose, .empty (absent_eq_ok_iff.mp habsent)⟩
    | true =>
        obtain ⟨b, fs, hread, h⟩ := Outcome.andThen_eq_ok.mp h
        obtain ⟨_, gs, hlast, h⟩ := Outcome.andThen_eq_ok.mp h
        cases h
        obtain ⟨ds, value, hblanks, hbegins, hmeans⟩ :=
          (firstItem_read_iff hvalue).mp ⟨es, hfirst, hread⟩
        have hclose := lastItem_eq_ok_iff.mp hlast
        exact ⟨[value], .list (.last hblanks hbegins hclose), .listed hmeans⟩
  · intro h
    obtain ⟨items, hbegins, hholds⟩ := h
    obtain ⟨ds, hds, hitems⟩ := begins_items_iff.mp hbegins
    cases hds
    cases hholds with
    | listed hmeans =>
        rcases hitems with ⟨-, hitems⟩ | hitems
        · cases hitems
        · cases hitems with
          | last hblanks hbegins hclose =>
              obtain ⟨es, hfirst, hread⟩ :=
                (firstItem_read_iff hvalue).mpr ⟨_, _, hblanks, hbegins, hmeans⟩
              rw [RecordForm.items, hfirst, Outcome.andThen_ok, if_pos rfl, hread,
                Outcome.andThen_ok, lastItem_eq_ok_iff.mpr hclose, Outcome.andThen_ok]
          | more _ _ _ hitems => cases hitems
    | empty hdefault =>
        rcases hitems with ⟨hclose, -⟩ | hitems
        · have hfirst := firstItem_eq_close_iff.mpr ((blanks_cons_iff rfl).mp hclose)
          rw [RecordForm.items, hfirst, Outcome.andThen_ok, if_neg Bool.false_ne_true,
            absent_eq_ok_iff.mpr hdefault]
          rfl
        · cases hitems

end RecordForm

/-- A record is read from the values that hold it, in an object or in a list. -/
theorem record_reads {form : RecordForm α} {means : Value Literal → α → Prop}
    (hvalue : form.value.Reads means) : (record form).Reads (form.Holds means) := by
  intro cs a rest
  constructor
  · intro h
    have hskip := blanks_skipBlanks cs
    change form.readForm cs = _ at h
    unfold RecordForm.readForm at h
    split at h
    · cases h
    · next ds heq =>
      obtain ⟨items, hbegins, hholds⟩ := (RecordForm.items_eq_ok_iff hvalue).mp h
      rw [heq] at hskip
      exact ⟨_, .list items, hskip, hbegins, hholds⟩
    · next ds heq =>
      obtain ⟨members, hbegins, hholds⟩ := (RecordForm.members_eq_ok_iff hvalue).mp h
      rw [heq] at hskip
      exact ⟨_, .object members, hskip, hbegins, hholds⟩
    · cases h
  · intro h
    obtain ⟨ds, value, hblanks, hbegins, hholds⟩ := h
    have hskip := skipBlanks_of_begins hblanks hbegins
    change form.readForm cs = _
    unfold RecordForm.readForm
    cases value with
    | list items =>
        obtain ⟨es, hds, -⟩ := begins_items_iff.mp hbegins
        rw [hds] at hskip hbegins
        rw [hskip]
        exact (RecordForm.items_eq_ok_iff hvalue).mpr ⟨items, hbegins, hholds⟩
    | object members =>
        obtain ⟨es, hds, -⟩ := begins_object_iff.mp hbegins
        rw [hds] at hskip hbegins
        rw [hskip]
        exact (RecordForm.members_eq_ok_iff hvalue).mpr ⟨members, hbegins, hholds⟩
    | null => cases hholds
    | bool => cases hholds
    | number => cases hholds
    | string => cases hholds

end CaskOrder.Json
