import CaskOrder.Json.Choice
import CaskOrder.Proofs.Json.Records

/-!
# Values that are chosen

A value that is one of several is read from either way of writing its name, as a string or as
the key of an object with a single member, and from nothing else.  The two ways are checked by
different readers: behind the key, `null` and the closing brace have to follow.

A name stands for the value that it is listed with.  Where the names are listed by a function
that gives different names to different values, this is the value with that name.
-/

namespace CaskOrder.Json

open Grammar

/-- The value is a string literal with the given text, or an object whose only member has this
text as its key and `null` as its value. -/
inductive Value.Names : Value Literal → String → Prop where
  | literal {literal : Literal} {name : String} :
      literal.text? = some name → Names (.string literal) name
  | member {key : Literal} {name : String} :
      key.text? = some name → Names (.object [(key, .null)]) name

/-- The value names one of the choices. -/
def Chooses (choices : List (String × α)) (value : Value Literal) (a : α) : Prop :=
  ∃ name, value.Names name ∧ choices.lookup name = some a

section

variable {choices : List (String × α)} {cs rest : List Char} {name : String} {a : α}

theorem named_eq_ok_iff {mid : List Char} :
    named choices name mid = .ok (a, rest) ↔ choices.lookup name = some a ∧ mid = rest := by
  unfold named
  cases choices.lookup name with
  | none => simp
  | some b => simp

theorem null_eq_ok_iff :
    null cs = .ok ((), rest) ↔ ∃ ds, Blanks cs ds ∧ Begins ds .null rest := by
  constructor
  · intro h
    have hskip := blanks_skipBlanks cs
    unfold null at h
    split at h
    · cases h
    · next ds heq =>
      rw [heq, word_eq_ok.mp h] at hskip
      exact ⟨_, hskip, .null rest⟩
    · cases h
  · intro h
    rcases h with ⟨ds, hblanks, hbegins⟩
    rw [null, skipBlanks_of_begins hblanks hbegins]
    cases hbegins
    exact word_eq_ok.mpr rfl

theorem lastMember_eq_ok_iff : lastMember cs = .ok ((), rest) ↔ Blanks cs ('}' :: rest) := by
  rw [blanks_cons_iff rfl]
  unfold lastMember
  constructor
  · intro h
    split at h
    · cases h
    · next heq =>
      cases h
      exact heq
    · cases h
  · intro h
    rw [h]
    rfl

/-! ## Names as keys -/

theorem namedMember_sound (h : namedMember choices cs = .ok (a, rest)) :
    ∃ key name, MembersLeft false cs [(key, .null)] rest ∧ key.text? = some name ∧
      choices.lookup name = some a := by
  have hskip := blanks_skipBlanks cs
  unfold namedMember at h
  split at h
  · cases h
  · next ds heq =>
    rw [heq] at hskip
    rcases Outcome.andThen_eq_ok.mp h with ⟨name, es, hname, h⟩
    rcases Outcome.andThen_eq_ok.mp h with ⟨b, fs, hnamed, h⟩
    rcases Outcome.andThen_eq_ok.mp h with ⟨_, gs, hcolon, h⟩
    rcases Outcome.andThen_eq_ok.mp h with ⟨_, hs, hnull, h⟩
    rcases Outcome.andThen_eq_ok.mp h with ⟨_, is, hclose, h⟩
    cases h
    rcases stringBody_eq_ok_iff.mp hname with ⟨key, hbody, htext⟩
    rcases named_eq_ok_iff.mp hnamed with ⟨hlookup, hes⟩
    rcases null_eq_ok_iff.mp hnull with ⟨js, hblanks, hbegins⟩
    rw [← hes] at hcolon
    have hmember : MemberAt false cs key .null hs :=
      ⟨cs, ds, es, gs, js, rfl, hskip, hbody, colon_eq_ok_iff.mp hcolon, hblanks, hbegins⟩
    have hleft : MembersLeft true hs [] rest :=
      membersLeft_nil_iff.mpr (lastMember_eq_ok_iff.mp hclose)
    exact ⟨key, name, membersLeft_cons_iff.mpr ⟨hs, hmember, hleft⟩, htext, hlookup⟩
  · cases h
  · cases h

theorem namedMember_complete {key : Literal} (hleft : MembersLeft false cs [(key, .null)] rest)
    (htext : key.text? = some name) (hlookup : choices.lookup name = some a) :
    namedMember choices cs = .ok (a, rest) := by
  rcases membersLeft_cons_iff.mp hleft with ⟨mid, hmember, hleft⟩
  rcases hmember with ⟨_, ds, es, fs, gs, rfl, hquote, hbody, hcolon, hblanks, hbegins⟩
  have hname := stringBody_eq_ok_iff.mpr ⟨key, hbody, htext⟩
  have hnamed : named choices name es = .ok (a, es) := named_eq_ok_iff.mpr ⟨hlookup, rfl⟩
  have hnull := null_eq_ok_iff.mpr ⟨gs, hblanks, hbegins⟩
  have hclose := lastMember_eq_ok_iff.mpr (membersLeft_nil_iff.mp hleft)
  rw [namedMember, (blanks_cons_iff rfl).mp hquote]
  simp only
  rw [hname, Outcome.andThen_ok, hnamed, Outcome.andThen_ok, colon_eq_ok_iff.mpr hcolon,
    Outcome.andThen_ok, hnull, Outcome.andThen_ok, hclose, Outcome.andThen_ok]

/-! ## Choices -/

theorem choice_sound (h : (choice choices).read cs = .ok (a, rest)) :
    ∃ ds value, Blanks cs ds ∧ Begins ds value rest ∧ Chooses choices value a := by
  have hskip := blanks_skipBlanks cs
  change readChoice choices cs = _ at h
  unfold readChoice at h
  split at h
  · cases h
  · next ds heq =>
    rw [heq] at hskip
    rcases Outcome.andThen_eq_ok.mp h with ⟨name, es, hname, hnamed⟩
    rcases stringBody_eq_ok_iff.mp hname with ⟨literal, hbody, htext⟩
    rcases named_eq_ok_iff.mp hnamed with ⟨hlookup, hes⟩
    rw [hes] at hbody
    exact ⟨_, .string literal, hskip, .string hbody, name, .literal htext, hlookup⟩
  · next ds heq =>
    rw [heq] at hskip
    rcases namedMember_sound h with ⟨key, name, hleft, htext, hlookup⟩
    have hbegins := begins_object_iff.mpr ⟨ds, rfl, hleft⟩
    exact ⟨_, .object [(key, .null)], hskip, hbegins, name, .member htext, hlookup⟩
  · cases h

theorem choice_complete {ds : List Char} {value : Value Literal} (hblanks : Blanks cs ds)
    (hbegins : Begins ds value rest) (hchooses : Chooses choices value a) :
    (choice choices).read cs = .ok (a, rest) := by
  have hskip := skipBlanks_of_begins hblanks hbegins
  change readChoice choices cs = _
  rcases hchooses with ⟨name, hnames, hlookup⟩
  cases hnames with
  | literal htext =>
      cases hbegins with
      | string hbody =>
          have hname := stringBody_eq_ok_iff.mpr ⟨_, hbody, htext⟩
          rw [readChoice, hskip]
          simp only
          rw [hname, Outcome.andThen_ok]
          exact named_eq_ok_iff.mpr ⟨hlookup, rfl⟩
  | member htext =>
      rcases begins_object_iff.mp hbegins with ⟨es, hds, hleft⟩
      rw [readChoice, hskip, hds]
      exact namedMember_complete hleft htext hlookup

theorem choice_reads (choices : List (String × α)) : (choice choices).Reads (Chooses choices) := by
  intro cs a rest
  constructor
  · exact choice_sound
  · intro h
    rcases h with ⟨ds, value, hblanks, hbegins, hchooses⟩
    exact choice_complete hblanks hbegins hchooses

end

/-! ## Lists of names -/

theorem lookup_map_eq_some_iff {f : α → String} (hf : Function.Injective f) {as : List α}
    {name : String} {a : α} :
    (as.map fun a => (f a, a)).lookup name = some a ↔ a ∈ as ∧ f a = name := by
  induction as with
  | nil => simp
  | cons b as ih =>
      rw [List.map_cons, List.lookup_cons, List.mem_cons]
      by_cases hname : name = f b
      · rw [hname, beq_self_eq_true, hf.eq_iff]
        simp only [Option.some.injEq]
        constructor
        · intro h
          exact ⟨.inl h.symm, h.symm⟩
        · intro h
          exact h.2.symm
      · rw [beq_eq_false_iff_ne.mpr hname]
        simp only
        rw [ih]
        constructor
        · intro h
          exact ⟨.inr h.1, h.2⟩
        · intro h
          rcases h with ⟨hfirst | hmem, ha⟩
          · rw [hfirst] at ha
            exact absurd ha.symm hname
          · exact ⟨hmem, ha⟩

/-! ## Readers of names -/

/-- The reader accepts the texts that name a value, and reads that value from them. -/
structure Reader.ReadsNames (reader : Reader α) (name : α → String) : Prop where
  ok_iff : ∀ text a, reader.parse text = .ok a ↔
    ∃ value, Document text.toList value ∧ value.Names (name a)
  error_iff : ∀ text, (∃ error, reader.parse text = .error error) ↔
    ∀ value, Document text.toList value → ∀ a, ¬value.Names (name a)

theorem choice_readsNames {f : α → String} (hf : Function.Injective f) {as : List α}
    (has : ∀ a, a ∈ as) : (choice (as.map fun a => (f a, a))).ReadsNames f := by
  have hok (text : String) (a : α) : (choice (as.map fun a => (f a, a))).parse text = .ok a ↔
      ∃ value, Document text.toList value ∧ value.Names (f a) := by
    rw [parse_eq_ok_iff (choice_reads _)]
    simp only [Chooses, lookup_map_eq_some_iff hf, has, true_and, exists_eq_right']
  constructor
  · exact hok
  · intro text
    constructor
    · intro h value hdocument a hnames
      rcases h with ⟨error, herror⟩
      rw [(hok text a).mpr ⟨value, hdocument, hnames⟩] at herror
      cases herror
    · intro hnone
      cases hparse : (choice (as.map fun a => (f a, a))).parse text with
      | error error => exact ⟨error, rfl⟩
      | ok a =>
          rcases (hok text a).mp hparse with ⟨value, hdocument, hnames⟩
          exact absurd hnames (hnone value hdocument a)

end CaskOrder.Json
