import CaskOrder.Json.Skip
import CaskOrder.Proofs.Json.Numerals
import CaskOrder.Proofs.Json.Strings

/-!
# Values that are passed over

Passing over a value keeps the open brackets in a list.  What is still wanted of a text
when certain brackets are open is written down as `Closes`, and every accepting run is
shown to have a derivation behind it.  In the other direction, a derivation leads the run
from the beginning of a value to its end, whatever brackets are open around it.
-/

namespace CaskOrder.Json

open Grammar

theorem keyword_eq_ok_iff {letters cs rest : List Char} :
    keyword letters cs = .ok ((), rest) ↔ cs = letters ++ rest :=
  word_eq_ok

/-! ## Values without brackets -/

theorem begins_of_unsigned {cs rest : List Char} (hunsigned : Unsigned cs rest) :
    ∃ value, Begins cs value rest := by
  obtain ⟨numeral, rfl⟩ := unsigned_suffix hunsigned
  exact ⟨.number numeral, .number (number_iff.mpr (.inl hunsigned))⟩

theorem begins_of_minus {cs rest : List Char} (hunsigned : Unsigned cs rest) :
    ∃ value, Begins ('-' :: cs) value rest := by
  have hnumber : Number ('-' :: cs) rest := number_iff.mpr (.inr ⟨cs, rfl, hunsigned⟩)
  obtain ⟨numeral, hnumeral⟩ := number_suffix hnumber
  rw [← hnumeral] at hnumber ⊢
  exact ⟨.number numeral, .number hnumber⟩

theorem skipNumeral_sound {cs rest : List Char} (h : skipNumeral cs = .ok ((), rest)) :
    Unsigned cs rest := by
  obtain ⟨numeral, rest', hread, hrest⟩ := Outcome.andThen_eq_ok.mp h
  cases hrest
  exact numeral_sound hread

theorem skipNumeral_complete {cs rest : List Char} (hunsigned : Unsigned cs rest)
    (hends : Ends rest) : skipNumeral cs = .ok ((), rest) := by
  obtain ⟨numeral, hread⟩ := numeral_complete .invalidNumber hunsigned hends
  exact Outcome.andThen_eq_ok.mpr ⟨numeral, rest, hread, rfl⟩

theorem skipAtom_sound {cs rest : List Char} (h : skipAtom cs = .ok ((), rest)) :
    ∃ value, Begins cs value rest := by
  unfold skipAtom at h
  split at h
  · rw [keyword_eq_ok_iff.mp h]
    exact ⟨.null, .null rest⟩
  · rw [keyword_eq_ok_iff.mp h]
    exact ⟨.bool true, .true rest⟩
  · rw [keyword_eq_ok_iff.mp h]
    exact ⟨.bool false, .false rest⟩
  · obtain ⟨literal, hbody⟩ := skipString_eq_ok_iff.mp h
    exact ⟨.string literal, .string hbody⟩
  · exact begins_of_minus (skipNumeral_sound h)
  · split at h
    · exact begins_of_unsigned (skipNumeral_sound h)
    · cases h

theorem skipAtom_unsigned {cs rest : List Char} (hunsigned : Unsigned cs rest)
    (hends : Ends rest) : skipAtom cs = .ok ((), rest) := by
  have hskip := skipNumeral_complete hunsigned hends
  obtain ⟨d, ds, rfl, hd⟩ := unsigned_head hunsigned
  unfold skipAtom
  split
  · next heq => cases heq; cases hd
  · next heq => cases heq; cases hd
  · next heq => cases heq; cases hd
  · next heq => cases heq; cases hd
  · next heq => cases heq; cases hd
  · rw [if_pos (by simpa using hd), hskip]

/-! ## Characters at which a value begins or ends -/

theorem ne_of_isDigit {c d : Char} (hd : d.isDigit = true) (hc : c.isDigit = false) : d ≠ c := by
  intro heq
  rw [heq, hc] at hd
  cases hd

theorem isBlank_of_isDigit {d : Char} (hd : d.isDigit = true) : isBlank d = false := by
  simp only [isBlank, Bool.or_eq_false_iff, decide_eq_false_iff_not]
  exact ⟨⟨⟨ne_of_isDigit hd rfl, ne_of_isDigit hd rfl⟩, ne_of_isDigit hd rfl⟩,
    ne_of_isDigit hd rfl⟩

theorem ends_of_blanks {cs ds : List Char} (hblanks : Blanks cs ds) (hends : Ends ds) : Ends cs := by
  cases hblanks with
  | none => exact hends
  | some hblank _ =>
      simp only [List.mem_cons, List.not_mem_nil, or_false] at hblank
      rcases hblank with rfl | rfl | rfl | rfl <;> constructor <;> simp [NoDigit]

/-- The characters that may follow a value in a list or an object end a numeral. -/
theorem ends_cons {c : Char} (hc : c ∈ [',', ']', '}']) (rest : List Char) : Ends (c :: rest) := by
  simp only [List.mem_cons, List.not_mem_nil, or_false] at hc
  rcases hc with rfl | rfl | rfl <;> constructor <;> simp [NoDigit]

/-- A character that a value can begin with. -/
structure Starts (c : Char) : Prop where
  not_blank : isBlank c = false
  not_bracket : c ≠ ']'
  not_brace : c ≠ '}'

theorem unsigned_starts {cs rest : List Char} (hunsigned : Unsigned cs rest) :
    ∃ c ds, cs = c :: ds ∧ Starts c := by
  obtain ⟨d, ds, hcs, hd⟩ := unsigned_head hunsigned
  exact ⟨d, ds, hcs, isBlank_of_isDigit hd, ne_of_isDigit hd rfl, ne_of_isDigit hd rfl⟩

theorem begins_starts {cs rest : List Char} {value : Value Literal}
    (hbegins : Begins cs value rest) : ∃ c ds, cs = c :: ds ∧ Starts c := by
  cases hbegins with
  | number hnumber =>
      rcases number_iff.mp hnumber with hunsigned | ⟨ds, hcs, -⟩
      · exact unsigned_starts hunsigned
      · exact ⟨'-', ds, hcs, by constructor <;> simp [isBlank]⟩
  | null | true | false | string | emptyList | list | emptyObject | object =>
      exact ⟨_, _, rfl, by constructor <;> simp [isBlank]⟩

theorem skipBlanks_of_begins {cs ds rest : List Char} {value : Value Literal}
    (hblanks : Blanks cs ds) (hbegins : Begins ds value rest) : skipBlanks cs = ds := by
  obtain ⟨c, tail, rfl, hc⟩ := begins_starts hbegins
  exact (blanks_cons_iff hc.not_blank).mp hblanks

/-! ## Parts of a member -/

theorem colon_eq_ok_iff {cs rest : List Char} :
    colon cs = .ok ((), rest) ↔ Blanks cs (':' :: rest) := by
  rw [blanks_cons_iff rfl]
  unfold colon
  constructor
  · intro h
    split at h
    · cases h
    · next heq =>
      cases h
      exact heq
    · cases h
  · intro h
    rw [h]
    rfl

theorem skipKey_eq_ok_iff {cs rest : List Char} :
    skipKey cs = .ok ((), rest) ↔
      ∃ ds key es, Blanks cs ('"' :: ds) ∧ Body ds key es ∧ Blanks es (':' :: rest) := by
  constructor
  · intro h
    unfold skipKey at h
    split at h
    · cases h
    · next ds heq =>
      obtain ⟨_, es, hstring, hcolon⟩ := Outcome.andThen_eq_ok.mp h
      obtain ⟨key, hbody⟩ := skipString_eq_ok_iff.mp hstring
      exact ⟨ds, key, es, (blanks_cons_iff rfl).mpr heq, hbody, colon_eq_ok_iff.mp hcolon⟩
    · cases h
  · intro h
    obtain ⟨ds, key, es, hblanks, hbody, hcolon⟩ := h
    rw [skipKey, (blanks_cons_iff rfl).mp hblanks]
    simp only
    rw [skipString_eq_ok_iff.mpr ⟨key, hbody⟩, Outcome.andThen_ok, colon_eq_ok_iff.mpr hcolon]

/-! ## Following a derivation -/

def skipRound (pending : Pending) : Reader (Turn Pending Unit) :=
  ⟨skipStep pending, skipStep_shrinks pending⟩

/-- What the run does after a round. -/
def passOver : Turn Pending Unit → List Char → Outcome Unit
  | .done _, cs => .ok ((), cs)
  | .more pending, cs => Reader.rounds skipRound pending cs

theorem passOver_more (pending : Pending) (cs : List Char) :
    passOver (.more pending) cs = (skipStep pending cs).andThen passOver := by
  rw [passOver, Reader.rounds_eq]
  congr 1
  funext turn rest
  cases turn <;> rfl

theorem skipItem_skipBlanks (inner : Bracket) (outer : List Bracket) (cs : List Char) :
    skipItem inner outer (skipBlanks cs) = skipItem inner outer cs := by
  have htwice : skipBlanks (skipBlanks cs) = skipBlanks cs :=
    (skipBlanks_eq_of_blanks (blanks_skipBlanks cs)).symm
  cases inner with
  | list => simp only [skipItem, skipStart, htwice]
  | object => simp only [skipItem, skipKey, htwice]

theorem passOver_close {inner : Bracket} {outer : List Bracket} {cs rest : List Char}
    (hclose : Blanks cs (inner.closing :: rest)) :
    passOver (.more (.after inner outer)) cs = passOver (Pending.completed outer) rest := by
  have hskip : skipBlanks cs = inner.closing :: rest :=
    (blanks_cons_iff (by cases inner <;> rfl)).mp hclose
  rw [passOver_more, skipStep, hskip]
  simp

theorem passOver_comma {inner : Bracket} {outer : List Bracket} {cs rest : List Char}
    (hcomma : Blanks cs (',' :: rest)) :
    passOver (.more (.after inner outer)) cs = (skipItem inner outer rest).andThen passOver := by
  have hskip : skipBlanks cs = ',' :: rest := (blanks_cons_iff rfl).mp hcomma
  have hnot : ',' ≠ inner.closing := by cases inner <;> simp [Bracket.closing]
  rw [passOver_more, skipStep, hskip]
  simp [hnot]

theorem passOver_opened_close {inner : Bracket} {outer : List Bracket} {cs rest : List Char}
    (hclose : Blanks cs (inner.closing :: rest)) :
    passOver (.more (.opened inner outer)) cs = passOver (Pending.completed outer) rest := by
  have hskip : skipBlanks cs = inner.closing :: rest :=
    (blanks_cons_iff (by cases inner <;> rfl)).mp hclose
  rw [passOver_more, skipStep, hskip]
  simp

theorem passOver_opened_item {inner : Bracket} {outer : List Bracket} {c : Char}
    {cs ds : List Char} (hskip : skipBlanks cs = c :: ds) (hc : c ≠ inner.closing) :
    passOver (.more (.opened inner outer)) cs = (skipItem inner outer cs).andThen passOver := by
  rw [← skipItem_skipBlanks, passOver_more, skipStep, hskip]
  simp [hc]

theorem skipStart_atom {outer : List Bracket} {cs ds rest : List Char} {c : Char}
    (hblanks : skipBlanks cs = c :: ds) (hlist : c ≠ '[') (hobject : c ≠ '{')
    (hatom : skipAtom (c :: ds) = .ok ((), rest)) :
    skipStart outer cs = .ok (Pending.completed outer, rest) := by
  unfold skipStart
  rw [hblanks]
  split
  · next heq => cases heq
  · next heq =>
    cases heq
    exact absurd rfl hlist
  · next heq =>
    cases heq
    exact absurd rfl hobject
  · rw [hatom]
    rfl

/-- The atoms of the grammar are those that are passed over at once. -/
theorem skip_atom {outer : List Bracket} {cs ds rest : List Char} {c : Char}
    (hblanks : skipBlanks cs = c :: ds) (hlist : c ≠ '[') (hobject : c ≠ '{')
    (hatom : skipAtom (c :: ds) = .ok ((), rest)) :
    (skipStart outer cs).andThen passOver = passOver (Pending.completed outer) rest := by
  rw [skipStart_atom hblanks hlist hobject hatom, Outcome.andThen_ok]

theorem skip_number {outer : List Bracket} {cs ds rest : List Char} (hskip : skipBlanks cs = ds)
    (hnumber : Number ds rest) (hends : Ends rest) :
    (skipStart outer cs).andThen passOver = passOver (Pending.completed outer) rest := by
  rcases number_iff.mp hnumber with hunsigned | ⟨es, rfl, hunsigned⟩
  · have hatom := skipAtom_unsigned hunsigned hends
    obtain ⟨d, es, rfl, hd⟩ := unsigned_head hunsigned
    exact skip_atom hskip (ne_of_isDigit hd rfl) (ne_of_isDigit hd rfl) hatom
  · exact skip_atom hskip (by simp) (by simp) (skipNumeral_complete hunsigned hends)

theorem items_starts {cs rest : List Char} {items : List (Value Literal)}
    (hitems : Items cs items rest) : ∃ c ds, skipBlanks cs = c :: ds ∧ Starts c := by
  cases hitems with
  | last hblanks hbegins _ =>
      rw [skipBlanks_of_begins hblanks hbegins]
      exact begins_starts hbegins
  | more hblanks hbegins _ _ =>
      rw [skipBlanks_of_begins hblanks hbegins]
      exact begins_starts hbegins

theorem members_starts {cs rest : List Char} {members : List (Literal × Value Literal)}
    (hmembers : Members cs members rest) : ∃ ds, skipBlanks cs = '"' :: ds := by
  cases hmembers with
  | last hquote => exact ⟨_, (blanks_cons_iff rfl).mp hquote⟩
  | more hquote => exact ⟨_, (blanks_cons_iff rfl).mp hquote⟩

mutual

/-- A value of the grammar is passed over to its end, whatever brackets are open. -/
theorem skip_begins {cs ds rest : List Char} {value : Value Literal} (outer : List Bracket)
    (hblanks : Blanks cs ds) (hbegins : Begins ds value rest) (hends : Ends rest) :
    (skipStart outer cs).andThen passOver = passOver (Pending.completed outer) rest := by
  have hskip := skipBlanks_of_begins hblanks hbegins
  cases hbegins with
  | null | true | false =>
      exact skip_atom hskip (by simp) (by simp) (keyword_eq_ok_iff.mpr rfl)
  | number hnumber => exact skip_number hskip hnumber hends
  | string hbody =>
      exact skip_atom hskip (by simp) (by simp) (skipString_eq_ok_iff.mpr ⟨_, hbody⟩)
  | emptyList hclose =>
      rw [skipStart, hskip]
      exact passOver_opened_close hclose
  | list hitems =>
      obtain ⟨c, tail, hstart, hc⟩ := items_starts hitems
      have hopen : c ≠ Bracket.list.closing := hc.not_bracket
      rw [skipStart, hskip]
      exact (passOver_opened_item hstart hopen).trans (skip_items outer hitems)
  | emptyObject hclose =>
      rw [skipStart, hskip]
      exact passOver_opened_close hclose
  | object hmembers =>
      obtain ⟨tail, hstart⟩ := members_starts hmembers
      rw [skipStart, hskip]
      exact (passOver_opened_item hstart (by simp [Bracket.closing])).trans
        (skip_members outer hmembers)

theorem skip_items {cs rest : List Char} {items : List (Value Literal)} (outer : List Bracket)
    (hitems : Items cs items rest) :
    (skipItem .list outer cs).andThen passOver = passOver (Pending.completed outer) rest := by
  -- the numeral of an item ends before the comma or the bracket behind it
  match hitems with
  | .last hblanks hbegins hclose =>
      have hends := ends_of_blanks hclose (ends_cons (by simp) _)
      have hitem := skip_begins (.list :: outer) hblanks hbegins hends
      exact hitem.trans (passOver_close hclose)
  | .more hblanks hbegins hcomma hitems =>
      have hends := ends_of_blanks hcomma (ends_cons (by simp) _)
      have hitem := skip_begins (.list :: outer) hblanks hbegins hends
      exact (hitem.trans (passOver_comma hcomma)).trans (skip_items outer hitems)

theorem skip_members {cs rest : List Char} {members : List (Literal × Value Literal)}
    (outer : List Bracket) (hmembers : Members cs members rest) :
    (skipItem .object outer cs).andThen passOver = passOver (Pending.completed outer) rest := by
  match hmembers with
  | .last hquote hbody hcolon hblanks hbegins hclose =>
      have hkey := skipKey_eq_ok_iff.mpr ⟨_, _, _, hquote, hbody, hcolon⟩
      have hends := ends_of_blanks hclose (ends_cons (by simp) _)
      have hitem := skip_begins (.object :: outer) hblanks hbegins hends
      rw [skipItem, hkey, Outcome.andThen_ok, hitem]
      exact passOver_close hclose
  | .more hquote hbody hcolon hblanks hbegins hcomma hmembers =>
      have hkey := skipKey_eq_ok_iff.mpr ⟨_, _, _, hquote, hbody, hcolon⟩
      have hends := ends_of_blanks hcomma (ends_cons (by simp) _)
      have hitem := skip_begins (.object :: outer) hblanks hbegins hends
      rw [skipItem, hkey, Outcome.andThen_ok, hitem]
      exact (passOver_comma hcomma).trans (skip_members outer hmembers)

end

/-! ## What an accepting run has read -/

/-- One or more items in a bracket, and the bracket that closes it. -/
def Contents : Bracket → List Char → List Char → Prop
  | .list, cs, rest => ∃ items, Items cs items rest
  | .object, cs, rest => ∃ members, Members cs members rest

/-- What may stand behind an item: the closing bracket, or a comma and further items. -/
def Continues (inner : Bracket) (cs rest : List Char) : Prop :=
  Blanks cs (inner.closing :: rest) ∨ ∃ ds, Blanks cs (',' :: ds) ∧ Contents inner ds rest

/-- What has to follow a value for all the open brackets to be closed. -/
inductive Closes : List Bracket → List Char → List Char → Prop where
  | none (rest : List Char) : Closes [] rest rest
  | some {inner : Bracket} {outer : List Bracket} {cs mid rest : List Char} :
      Continues inner cs mid → Closes outer mid rest → Closes (inner :: outer) cs rest

def Derives : Pending → List Char → List Char → Prop
  | .value outer, cs, rest =>
      ∃ ds value es, Blanks cs ds ∧ Begins ds value es ∧ Closes outer es rest
  | .opened inner outer, cs, rest =>
      ∃ es, (Blanks cs (inner.closing :: es) ∨ Contents inner cs es) ∧ Closes outer es rest
  | .after inner outer, cs, rest => Closes (inner :: outer) cs rest

def Reaches : Turn Pending Unit → List Char → List Char → Prop
  | .done _, cs, rest => cs = rest
  | .more pending, cs, rest => Derives pending cs rest

theorem closes_of_completed {outer : List Bracket} {cs rest : List Char}
    (hreach : Reaches (Pending.completed outer) cs rest) : Closes outer cs rest := by
  cases outer with
  | nil =>
      have hcs : cs = rest := hreach
      rw [hcs]
      exact .none rest
  | cons inner outer => exact hreach

theorem contents_of_continues_list {cs ds es rest : List Char} {value : Value Literal}
    (hblanks : Blanks cs ds) (hbegins : Begins ds value es)
    (hcontinues : Continues .list es rest) : Contents .list cs rest := by
  rcases hcontinues with hclose | ⟨fs, hcomma, items, hitems⟩
  · exact ⟨[value], .last hblanks hbegins hclose⟩
  · exact ⟨value :: items, .more hblanks hbegins hcomma hitems⟩

theorem contents_of_continues_object {cs ds es fs gs hs rest : List Char} {key : Literal}
    {value : Value Literal} (hquote : Blanks cs ('"' :: ds)) (hbody : Body ds key es)
    (hcolon : Blanks es (':' :: fs)) (hblanks : Blanks fs gs) (hbegins : Begins gs value hs)
    (hcontinues : Continues .object hs rest) : Contents .object cs rest := by
  rcases hcontinues with hclose | ⟨is, hcomma, members, hmembers⟩
  · exact ⟨[(key, value)], .last hquote hbody hcolon hblanks hbegins hclose⟩
  · exact ⟨(key, value) :: members, .more hquote hbody hcolon hblanks hbegins hcomma hmembers⟩

theorem begins_of_brackets {cs es : List Char}
    (h : Blanks cs (Bracket.list.closing :: es) ∨ Contents .list cs es) :
    ∃ value, Begins ('[' :: cs) value es := by
  rcases h with hclose | ⟨items, hitems⟩
  · exact ⟨.list [], .emptyList hclose⟩
  · exact ⟨.list items, .list hitems⟩

theorem begins_of_braces {cs es : List Char}
    (h : Blanks cs (Bracket.object.closing :: es) ∨ Contents .object cs es) :
    ∃ value, Begins ('{' :: cs) value es := by
  rcases h with hclose | ⟨members, hmembers⟩
  · exact ⟨.object [], .emptyObject hclose⟩
  · exact ⟨.object members, .object hmembers⟩

theorem skipStart_sound {outer : List Bracket} {cs mid rest : List Char}
    {turn : Turn Pending Unit} (h : skipStart outer cs = .ok (turn, mid))
    (hreach : Reaches turn mid rest) : Derives (.value outer) cs rest := by
  have hblanks := blanks_skipBlanks cs
  unfold skipStart at h
  split at h
  · cases h
  · next ds heq =>
    cases h
    obtain ⟨es, hcontents, hcloses⟩ := hreach
    obtain ⟨value, hbegins⟩ := begins_of_brackets hcontents
    rw [heq] at hblanks
    exact ⟨_, value, es, hblanks, hbegins, hcloses⟩
  · next ds heq =>
    cases h
    obtain ⟨es, hcontents, hcloses⟩ := hreach
    obtain ⟨value, hbegins⟩ := begins_of_braces hcontents
    rw [heq] at hblanks
    exact ⟨_, value, es, hblanks, hbegins, hcloses⟩
  · obtain ⟨_, es, hatom, hturn⟩ := Outcome.andThen_eq_ok.mp h
    cases hturn
    obtain ⟨value, hbegins⟩ := skipAtom_sound hatom
    exact ⟨_, value, _, hblanks, hbegins, closes_of_completed hreach⟩

theorem skipItem_sound {inner : Bracket} {outer : List Bracket} {cs mid rest : List Char}
    {turn : Turn Pending Unit} (h : skipItem inner outer cs = .ok (turn, mid))
    (hreach : Reaches turn mid rest) :
    ∃ es, Contents inner cs es ∧ Closes outer es rest := by
  cases inner with
  | list =>
      obtain ⟨ds, value, es, hblanks, hbegins, hcloses⟩ := skipStart_sound h hreach
      cases hcloses with
      | some hcontinues hcloses =>
          exact ⟨_, contents_of_continues_list hblanks hbegins hcontinues, hcloses⟩
  | object =>
      obtain ⟨_, fs, hkey, hstart⟩ := Outcome.andThen_eq_ok.mp h
      obtain ⟨ds, key, es, hquote, hbody, hcolon⟩ := skipKey_eq_ok_iff.mp hkey
      obtain ⟨gs, value, hs, hblanks, hbegins, hcloses⟩ := skipStart_sound hstart hreach
      cases hcloses with
      | some hcontinues hcloses =>
          have hcontents :=
            contents_of_continues_object hquote hbody hcolon hblanks hbegins hcontinues
          exact ⟨_, hcontents, hcloses⟩

theorem skipStep_sound {pending : Pending} {cs mid rest : List Char} {turn : Turn Pending Unit}
    (h : skipStep pending cs = .ok (turn, mid)) (hreach : Reaches turn mid rest) :
    Derives pending cs rest := by
  cases pending with
  | value outer => exact skipStart_sound h hreach
  | opened inner outer =>
      simp only [skipStep] at h
      split at h
      · cases h
      · next c ds heq =>
        split at h
        · next hclose =>
          cases h
          rw [hclose] at heq
          have hblanks := blanks_skipBlanks cs
          rw [heq] at hblanks
          exact ⟨_, .inl hblanks, closes_of_completed hreach⟩
        · rw [← heq, skipItem_skipBlanks] at h
          obtain ⟨es, hcontents, hcloses⟩ := skipItem_sound h hreach
          exact ⟨es, .inr hcontents, hcloses⟩
  | after inner outer =>
      simp only [skipStep] at h
      split at h
      · cases h
      · next c ds heq =>
        have hblanks := blanks_skipBlanks cs
        rw [heq] at hblanks
        split at h
        · next hclose =>
          cases h
          rw [hclose] at hblanks
          exact .some (.inl hblanks) (closes_of_completed hreach)
        · split at h
          · next hcomma =>
            rw [hcomma] at hblanks
            obtain ⟨es, hcontents, hcloses⟩ := skipItem_sound h hreach
            exact .some (.inr ⟨ds, hblanks, hcontents⟩) hcloses
          · cases h

theorem skipValue_sound {cs rest : List Char} (h : skipValue.read cs = .ok ((), rest)) :
    ∃ ds value, Blanks cs ds ∧ Begins ds value rest := by
  have hrounds : Reader.rounds skipRound (.value []) cs = .ok ((), rest) := h
  have hderives : Derives (.value []) cs rest := by
    apply Reader.rounds_induction (motive := fun pending cs => Derives pending cs rest) _ _ hrounds
    · intro pending cs hread
      exact skipStep_sound hread rfl
    · intro pending cs pending' mid hread hderives
      exact skipStep_sound hread hderives
  obtain ⟨ds, value, es, hblanks, hbegins, hcloses⟩ := hderives
  cases hcloses
  exact ⟨ds, value, hblanks, hbegins⟩

theorem skipValue_complete {cs ds rest : List Char} {value : Value Literal}
    (hblanks : Blanks cs ds) (hbegins : Begins ds value rest) (hends : Ends rest) :
    skipValue.read cs = .ok ((), rest) := by
  have hpass : passOver (.more (.value [])) cs = .ok ((), rest) := by
    rw [passOver_more]
    exact skip_begins [] hblanks hbegins hends
  exact hpass

end CaskOrder.Json
