import CaskOrder.Json.Document
import CaskOrder.Json.Sequence
import CaskOrder.Proofs.Json.Skipping

/-!
# Values that are read

A reader of a kind of values is described by what those values mean: it accepts the
beginning of a text if and only if a value of the grammar begins there, behind blanks,
and the reader returns what that value means.  Strings are read in this way, and so are
lists of values that are themselves read in this way.
-/

namespace CaskOrder.Json

open Grammar

/-! ## The meaning of strings and lists -/

/-- The value is a string literal whose halves of characters are paired. -/
def Value.IsString (value : Value Literal) (text : String) : Prop :=
  ∃ literal, value = .string literal ∧ literal.text? = some text

/-- The value is a list, and its items mean the given ones. -/
def Value.IsList (means : Value Literal → α → Prop) (value : Value Literal) (as : List α) :
    Prop :=
  ∃ items, value = .list items ∧ List.Forall₂ means items as

/-- The reader accepts the values that mean something to it, and returns what they mean. -/
def Reader.Reads (reader : Reader α) (means : Value Literal → α → Prop) : Prop :=
  ∀ cs a rest, reader.read cs = .ok (a, rest) ↔
    ∃ ds value, Blanks cs ds ∧ Begins ds value rest ∧ means value a

variable {means : Value Literal → α → Prop}

theorem Reader.Reads.map {reader : Reader α} (hreads : reader.Reads means) (f : α → β) :
    (reader.map f).Reads fun value b => ∃ a, means value a ∧ f a = b := by
  intro cs b rest
  constructor
  · intro h
    obtain ⟨a, rest', hread, hresult⟩ := Outcome.andThen_eq_ok.mp h
    cases hresult
    obtain ⟨ds, value, hblanks, hbegins, hmeans⟩ := (hreads _ _ _).mp hread
    exact ⟨ds, value, hblanks, hbegins, a, hmeans, rfl⟩
  · intro h
    obtain ⟨ds, value, hblanks, hbegins, a, hmeans, hb⟩ := h
    have hread := (hreads _ _ _).mpr ⟨ds, value, hblanks, hbegins, hmeans⟩
    rw [← hb]
    exact Outcome.andThen_eq_ok.mpr ⟨a, rest, hread, rfl⟩

/-! ## Strings -/

theorem opening_eq_ok_iff {mark : Char} {expected : Expected} {cs rest : List Char} :
    opening mark expected cs = .ok ((), rest) ↔ skipBlanks cs = mark :: rest := by
  unfold opening
  constructor
  · intro h
    split at h
    · cases h
    · next c ds heq =>
      split at h
      · next hmark =>
        cases h
        rw [heq, hmark]
      · cases h
  · intro h
    rw [h]
    simp

theorem opening_string_iff {expected : Expected} {cs rest : List Char} :
    opening '"' expected cs = .ok ((), rest) ↔ Blanks cs ('"' :: rest) :=
  opening_eq_ok_iff.trans (blanks_cons_iff rfl).symm

theorem opening_list_iff {expected : Expected} {cs rest : List Char} :
    opening '[' expected cs = .ok ((), rest) ↔ Blanks cs ('[' :: rest) :=
  opening_eq_ok_iff.trans (blanks_cons_iff rfl).symm

theorem begins_string_iff {cs rest : List Char} {text : String} :
    (∃ value, Begins cs value rest ∧ value.IsString text) ↔
      ∃ ds, cs = '"' :: ds ∧ stringBody.read ds = .ok (text, rest) := by
  constructor
  · intro h
    obtain ⟨value, hbegins, literal, hvalue, htext⟩ := h
    rw [hvalue] at hbegins
    cases hbegins with
    | string hbody => exact ⟨_, rfl, stringBody_eq_ok_iff.mpr ⟨literal, hbody, htext⟩⟩
  · intro h
    obtain ⟨ds, hcs, hread⟩ := h
    obtain ⟨literal, hbody, htext⟩ := stringBody_eq_ok_iff.mp hread
    rw [hcs]
    exact ⟨.string literal, .string hbody, literal, rfl, htext⟩

theorem string_reads : string.Reads Value.IsString := by
  intro cs text rest
  constructor
  · intro h
    obtain ⟨_, ds, hopening, hbody⟩ := Outcome.andThen_eq_ok.mp h
    obtain ⟨value, hbegins, hmeans⟩ := begins_string_iff.mpr ⟨ds, rfl, hbody⟩
    exact ⟨_, value, opening_string_iff.mp hopening, hbegins, hmeans⟩
  · intro h
    obtain ⟨ds, value, hblanks, hbegins, hmeans⟩ := h
    obtain ⟨es, hds, hbody⟩ := begins_string_iff.mp ⟨value, hbegins, hmeans⟩
    rw [hds] at hblanks
    exact Outcome.andThen_eq_ok.mpr ⟨(), es, opening_string_iff.mpr hblanks, hbody⟩

/-! ## Lists -/

/-- Where an item or a member begins: at once if it is the first one, and otherwise
behind a comma. -/
def Behind (begun : Bool) (cs ds : List Char) : Prop :=
  if begun then Blanks cs (',' :: ds) else cs = ds

/-- What is left of a list: its closing bracket, or further items and the bracket. -/
def ItemsLeft (means : Value Literal → α → Prop) (begun : Bool) (cs : List Char) (as : List α)
    (rest : List Char) : Prop :=
  (Blanks cs (']' :: rest) ∧ as = []) ∨
    ∃ ds items, Behind begun cs ds ∧ Items ds items rest ∧ List.Forall₂ means items as

def itemMark (begun : Bool) (cs : List Char) : Outcome Bool :=
  if begun then nextItem cs else firstItem cs

theorem firstItem_eq_close_iff {cs rest : List Char} :
    firstItem cs = .ok (false, rest) ↔ skipBlanks cs = ']' :: rest := by
  unfold firstItem
  constructor
  · intro h
    split at h
    · cases h
    · next heq =>
      cases h
      exact heq
    · cases h
  · intro h
    rw [h]
    rfl

theorem firstItem_eq_item_iff {cs ds : List Char} :
    firstItem cs = .ok (true, ds) ↔ skipBlanks cs = ds ∧ ∃ c es, ds = c :: es ∧ c ≠ ']' := by
  unfold firstItem
  constructor
  · intro h
    split at h
    · cases h
    · cases h
    · next hnil hbracket =>
      cases h
      cases hskip : skipBlanks cs with
      | nil => exact absurd hskip hnil
      | cons c es =>
          refine ⟨rfl, c, es, rfl, ?_⟩
          intro hc
          rw [hc] at hskip
          exact hbracket es hskip
  · intro h
    obtain ⟨hskip, c, es, hds, hc⟩ := h
    rw [hskip, hds]
    split
    · next heq => cases heq
    · next heq =>
      cases heq
      exact absurd rfl hc
    · rfl

theorem nextItem_eq_close_iff {cs rest : List Char} :
    nextItem cs = .ok (false, rest) ↔ skipBlanks cs = ']' :: rest := by
  unfold nextItem
  constructor
  · intro h
    split at h
    · cases h
    · next heq =>
      cases h
      exact heq
    · split at h <;> cases h
    · cases h
  · intro h
    rw [h]
    rfl

/-- Behind a comma an item is looked for as the first one is. -/
theorem nextItem_comma {cs ds : List Char} (hcomma : skipBlanks cs = ',' :: ds)
    (es : List Char) : nextItem cs = .ok (true, es) ↔ firstItem ds = .ok (true, es) := by
  rw [nextItem, hcomma, firstItem]
  simp only
  split <;> simp

theorem nextItem_eq_item_iff {cs es : List Char} :
    nextItem cs = .ok (true, es) ↔
      ∃ ds, skipBlanks cs = ',' :: ds ∧ firstItem ds = .ok (true, es) := by
  constructor
  · intro h
    have hnext := h
    unfold nextItem at h
    split at h
    · cases h
    · cases h
    · next ds heq => exact ⟨ds, heq, (nextItem_comma heq es).mp hnext⟩
    · cases h
  · intro h
    obtain ⟨ds, hcomma, hfirst⟩ := h
    exact (nextItem_comma hcomma es).mpr hfirst

theorem itemMark_close {begun : Bool} {cs rest : List Char} :
    itemMark begun cs = .ok (false, rest) ↔ Blanks cs (']' :: rest) := by
  rw [blanks_cons_iff rfl]
  cases begun with
  | false => exact firstItem_eq_close_iff
  | true => exact nextItem_eq_close_iff

theorem itemMark_item {begun : Bool} {cs es : List Char} :
    itemMark begun cs = .ok (true, es) ↔
      ∃ ds, Behind begun cs ds ∧ firstItem ds = .ok (true, es) := by
  cases begun with
  | false => simp [itemMark, Behind]
  | true =>
      have hbehind (ds : List Char) : Behind true cs ds ↔ skipBlanks cs = ',' :: ds :=
        blanks_cons_iff rfl
      simp only [itemMark, hbehind, if_true]
      exact nextItem_eq_item_iff

/-- An item is read where the grammar has one. -/
theorem firstItem_read_iff {item : Reader α} (hitem : item.Reads means) {ds mid : List Char}
    {a : α} :
    (∃ es, firstItem ds = .ok (true, es) ∧ item.read es = .ok (a, mid)) ↔
      ∃ es value, Blanks ds es ∧ Begins es value mid ∧ means value a := by
  constructor
  · intro h
    obtain ⟨es, hfirst, hread⟩ := h
    obtain ⟨fs, value, hblanks, hbegins, hmeans⟩ := (hitem _ _ _).mp hread
    have hskip := blanks_skipBlanks ds
    rw [(firstItem_eq_item_iff.mp hfirst).1] at hskip
    exact ⟨fs, value, blanks_trans hskip hblanks, hbegins, hmeans⟩
  · intro h
    obtain ⟨es, value, hblanks, hbegins, hmeans⟩ := h
    obtain ⟨c, tail, hes, hc⟩ := begins_starts hbegins
    have hskip := skipBlanks_of_begins hblanks hbegins
    have hfirst := firstItem_eq_item_iff.mpr ⟨hskip, c, tail, hes, hc.not_bracket⟩
    exact ⟨es, hfirst, (hitem _ _ _).mpr ⟨es, value, .none es, hbegins, hmeans⟩⟩

section Rounds

variable {item : Reader α} {taken : List α} {cs : List Char}

theorem itemRound_read (item : Reader α) (taken : List α) (cs : List Char) :
    (itemRound item taken).read cs =
      (itemMark (!taken.isEmpty) cs).andThen fun more rest =>
        if more then (item.read rest).andThen fun a rest => .ok (.more (a :: taken), rest)
        else .ok (.done taken.reverse, rest) := by
  cases taken <;> rfl

theorem itemRound_done_iff {as : List α} {rest : List Char} :
    (itemRound item taken).read cs = .ok (.done as, rest) ↔
      as = taken.reverse ∧ Blanks cs (']' :: rest) := by
  have hclose : Blanks cs (']' :: rest) ↔ itemMark (!taken.isEmpty) cs = .ok (false, rest) :=
    itemMark_close.symm
  rw [itemRound_read, hclose]
  constructor
  · intro h
    obtain ⟨more, mid, hmark, h⟩ := Outcome.andThen_eq_ok.mp h
    cases more with
    | false =>
        cases h
        exact ⟨rfl, hmark⟩
    | true =>
        obtain ⟨a, mid', _, hturn⟩ := Outcome.andThen_eq_ok.mp h
        cases hturn
  · intro h
    obtain ⟨has, hmark⟩ := h
    rw [hmark, has]
    rfl

theorem itemRound_more_iff (hitem : item.Reads means) {taken' : List α} {mid : List Char} :
    (itemRound item taken).read cs = .ok (.more taken', mid) ↔
      ∃ a ds es value, taken' = a :: taken ∧ Behind (!taken.isEmpty) cs ds ∧
        Blanks ds es ∧ Begins es value mid ∧ means value a := by
  rw [itemRound_read]
  constructor
  · intro h
    obtain ⟨more, es, hmark, h⟩ := Outcome.andThen_eq_ok.mp h
    cases more with
    | false => cases h
    | true =>
        obtain ⟨a, mid', hread, hturn⟩ := Outcome.andThen_eq_ok.mp h
        cases hturn
        obtain ⟨ds, hbehind, hfirst⟩ := itemMark_item.mp hmark
        obtain ⟨es', value, hitem⟩ := (firstItem_read_iff hitem).mp ⟨es, hfirst, hread⟩
        exact ⟨a, ds, es', value, rfl, hbehind, hitem⟩
  · intro h
    obtain ⟨a, ds, es, value, htaken, hbehind, hvalue⟩ := h
    obtain ⟨es', hfirst, hread⟩ := (firstItem_read_iff hitem).mpr ⟨es, value, hvalue⟩
    rw [itemMark_item.mpr ⟨ds, hbehind, hfirst⟩, htaken, Outcome.andThen_ok, if_pos rfl, hread,
      Outcome.andThen_ok]

end Rounds

theorem itemsLeft_nil_iff {begun : Bool} {cs rest : List Char} :
    ItemsLeft means begun cs [] rest ↔ Blanks cs (']' :: rest) := by
  constructor
  · intro h
    rcases h with ⟨hclose, -⟩ | ⟨ds, items, -, hitems, hmeans⟩
    · exact hclose
    · cases hmeans
      cases hitems
  · intro hclose
    exact .inl ⟨hclose, rfl⟩

theorem itemsLeft_cons_iff {begun : Bool} {cs rest : List Char} {a : α} {as : List α} :
    ItemsLeft means begun cs (a :: as) rest ↔
      ∃ ds es value mid, Behind begun cs ds ∧ Blanks ds es ∧ Begins es value mid ∧
        means value a ∧ ItemsLeft means true mid as rest := by
  constructor
  · intro h
    rcases h with ⟨-, has⟩ | ⟨ds, items, hbehind, hitems, hmeans⟩
    · cases has
    · cases hmeans with
      | cons hitem hmeans =>
          cases hitems with
          | last hblanks hbegins hclose =>
              cases hmeans
              exact ⟨ds, _, _, _, hbehind, hblanks, hbegins, hitem, .inl ⟨hclose, rfl⟩⟩
          | more hblanks hbegins hcomma hitems =>
              exact ⟨ds, _, _, _, hbehind, hblanks, hbegins, hitem,
                .inr ⟨_, _, hcomma, hitems, hmeans⟩⟩
  · intro h
    obtain ⟨ds, es, value, mid, hbehind, hblanks, hbegins, hitem, hleft⟩ := h
    rcases hleft with ⟨hclose, has⟩ | ⟨fs, items, hcomma, hitems, hmeans⟩
    · rw [has]
      exact .inr ⟨ds, [value], hbehind, .last hblanks hbegins hclose, .cons hitem .nil⟩
    · exact .inr ⟨ds, value :: items, hbehind, .more hblanks hbegins hcomma hitems,
        .cons hitem hmeans⟩

theorem itemRounds_sound {item : Reader α} (hitem : item.Reads means) {taken all : List α}
    {cs rest : List Char} (h : Reader.rounds (itemRound item) taken cs = .ok (all, rest)) :
    ∃ as, all = taken.reverse ++ as ∧ ItemsLeft means (!taken.isEmpty) cs as rest := by
  apply Reader.rounds_induction (motive := fun taken cs =>
    ∃ as, all = taken.reverse ++ as ∧ ItemsLeft means (!taken.isEmpty) cs as rest) _ _ h
  · intro taken cs hread
    obtain ⟨hall, hclose⟩ := itemRound_done_iff.mp hread
    exact ⟨[], by rw [hall, List.append_nil], itemsLeft_nil_iff.mpr hclose⟩
  · intro taken cs taken' mid hread hleft
    obtain ⟨a, ds, es, value, htaken, hvalue⟩ := (itemRound_more_iff hitem).mp hread
    obtain ⟨hbehind, hblanks, hbegins, hmeans⟩ := hvalue
    obtain ⟨as, hall, hleft⟩ := hleft
    subst htaken
    have hall' : all = taken.reverse ++ a :: as := by simpa using hall
    exact ⟨a :: as, hall',
      itemsLeft_cons_iff.mpr ⟨ds, es, value, mid, hbehind, hblanks, hbegins, hmeans, hleft⟩⟩

theorem itemRounds_complete {item : Reader α} (hitem : item.Reads means) {taken as : List α}
    {cs rest : List Char} (hleft : ItemsLeft means (!taken.isEmpty) cs as rest) :
    Reader.rounds (itemRound item) taken cs = .ok (taken.reverse ++ as, rest) := by
  induction as generalizing taken cs with
  | nil =>
      apply Reader.rounds_done
      exact itemRound_done_iff.mpr ⟨List.append_nil _, itemsLeft_nil_iff.mp hleft⟩
  | cons a as ih =>
      obtain ⟨ds, es, value, mid, hbehind, hblanks, hbegins, hmeans, hleft⟩ :=
        itemsLeft_cons_iff.mp hleft
      have hread : (itemRound item taken).read cs = .ok (.more (a :: taken), mid) :=
        (itemRound_more_iff hitem).mpr
          ⟨a, ds, es, value, rfl, hbehind, hblanks, hbegins, hmeans⟩
      have hrest : Reader.rounds (itemRound item) (a :: taken) mid =
          .ok ((a :: taken).reverse ++ as, rest) := ih hleft
      rw [Reader.rounds_more hread, hrest, List.reverse_cons, List.append_assoc,
        List.singleton_append]

theorem begins_items_iff {cs rest : List Char} {items : List (Value Literal)} :
    Begins cs (.list items) rest ↔
      ∃ ds, cs = '[' :: ds ∧ ((Blanks ds (']' :: rest) ∧ items = []) ∨ Items ds items rest) := by
  constructor
  · intro h
    cases h with
    | emptyList hclose => exact ⟨_, rfl, .inl ⟨hclose, rfl⟩⟩
    | list hitems => exact ⟨_, rfl, .inr hitems⟩
  · intro h
    obtain ⟨ds, hcs, hitems⟩ := h
    rw [hcs]
    rcases hitems with ⟨hclose, hitems⟩ | hitems
    · rw [hitems]
      exact .emptyList hclose
    · exact .list hitems

theorem begins_list_iff {cs rest : List Char} {as : List α} :
    (∃ value, Begins cs value rest ∧ value.IsList means as) ↔
      ∃ ds, cs = '[' :: ds ∧ ItemsLeft means false ds as rest := by
  constructor
  · intro h
    obtain ⟨value, hbegins, items, hvalue, hmeans⟩ := h
    rw [hvalue] at hbegins
    obtain ⟨ds, hcs, hitems⟩ := begins_items_iff.mp hbegins
    rcases hitems with ⟨hclose, hitems⟩ | hitems
    · rw [hitems] at hmeans
      cases hmeans
      exact ⟨ds, hcs, .inl ⟨hclose, rfl⟩⟩
    · exact ⟨ds, hcs, .inr ⟨ds, items, rfl, hitems, hmeans⟩⟩
  · intro h
    obtain ⟨ds, hcs, hleft⟩ := h
    rcases hleft with ⟨hclose, has⟩ | ⟨es, items, hds, hitems, hmeans⟩
    · rw [has]
      exact ⟨.list [], begins_items_iff.mpr ⟨ds, hcs, .inl ⟨hclose, rfl⟩⟩, [], rfl, .nil⟩
    · cases hds
      exact ⟨.list items, begins_items_iff.mpr ⟨ds, hcs, .inr hitems⟩, items, rfl, hmeans⟩

/-- A list is read if each of its items is, and an item is whatever its reader accepts. -/
theorem listOf_reads {item : Reader α} (hitem : item.Reads means) :
    (listOf item).Reads (Value.IsList means) := by
  intro cs as rest
  constructor
  · intro h
    obtain ⟨_, ds, hopening, hrounds⟩ := Outcome.andThen_eq_ok.mp h
    obtain ⟨as', has, hleft⟩ := itemRounds_sound hitem hrounds
    have has' : as = as' := by simpa using has
    rw [← has'] at hleft
    obtain ⟨value, hbegins, hmeans⟩ := begins_list_iff.mpr ⟨ds, rfl, hleft⟩
    exact ⟨_, value, opening_list_iff.mp hopening, hbegins, hmeans⟩
  · intro h
    obtain ⟨ds, value, hblanks, hbegins, hmeans⟩ := h
    obtain ⟨es, hds, hleft⟩ := begins_list_iff.mp ⟨value, hbegins, hmeans⟩
    rw [hds] at hblanks
    have hrounds : Reader.rounds (itemRound item) [] es = .ok (as, rest) :=
      itemRounds_complete hitem hleft
    exact Outcome.andThen_eq_ok.mpr ⟨(), es, opening_list_iff.mpr hblanks, hrounds⟩

/-! ## Whole texts -/

theorem readWhole_eq_ok_iff {reader : Reader α} (hreads : reader.Reads means) {cs : List Char}
    {a : α} : reader.readWhole cs = .ok a ↔ ∃ value, Document cs value ∧ means value a := by
  unfold Reader.readWhole
  constructor
  · intro h
    split at h
    · cases h
    · next b rest hread =>
      split at h
      · next hrest =>
        cases h
        obtain ⟨ds, value, hblanks, hbegins, hmeans⟩ := (hreads _ _ _).mp hread
        exact ⟨value, ⟨ds, rest, hblanks, hbegins, blanks_nil_iff.mpr hrest⟩, hmeans⟩
      · cases h
  · intro h
    obtain ⟨value, ⟨ds, rest, hblanks, hbegins, hrest⟩, hmeans⟩ := h
    rw [(hreads _ _ _).mpr ⟨ds, value, hblanks, hbegins, hmeans⟩]
    simp only
    rw [blanks_nil_iff.mp hrest]

/-- A text is parsed if and only if it is a document that means something to the reader. -/
theorem parse_eq_ok_iff {reader : Reader α} (hreads : reader.Reads means) {text : String}
    {a : α} :
    reader.parse text = .ok a ↔ ∃ value, Document text.toList value ∧ means value a := by
  rw [← readWhole_eq_ok_iff hreads]
  unfold Reader.parse
  cases reader.readWhole text.toList with
  | error fault => simp
  | ok b => simp

end CaskOrder.Json
