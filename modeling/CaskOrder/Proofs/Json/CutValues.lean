import CaskOrder.Proofs.Json.Cuts
import CaskOrder.Proofs.Json.OneLine
import CaskOrder.Proofs.Json.Records

/-!
# Values that are cut off

A string, a list and a record end with a mark that is looked for, so each of them needs all of
the text that is written for it, as long as its parts do.  A list of strings needs all of its
text also where it is passed over.

A text on one line that is needed to its end is reported as incomplete wherever it is cut, and
the place that is reported is the cut.
-/

namespace CaskOrder.Json

open Grammar

/-! ## Strings -/

theorem needsAll_stringBody_write (text : String) :
    NeedsAll stringBody.read (text.toList.flatMap writeChar ++ ['"']) text := by
  have hbody := needsAll_stringBody (spells_write text.toList [])
  rw [String.ofList_toList] at hbody
  exact hbody

theorem needsAll_opening (mark : Char) (hmark : isBlank mark = false) (expected : Expected) :
    NeedsAll (opening mark expected) [mark] () := by
  apply needsAll_char (runsOut_next .value)
  intro cs
  exact opening_eq_ok_iff.mpr (skipBlanks_cons hmark cs)

theorem needsAll_string (text : String) : NeedsAll string.read (writeString text) text :=
  (needsAll_opening '"' rfl .string).andThen (needsAll_stringBody_write text)

/-! ## Lists -/

theorem Value.Writable.starts {value : Value String} (hwritable : value.Writable) :
    ∃ c cs, value.write = c :: cs ∧ Starts c := by
  rcases hwritable.written [] with ⟨literals, hbegins, -⟩
  rw [List.append_nil] at hbegins
  exact begins_starts hbegins

section

variable {item : Reader α} {text : List Char} {a : α} {c : Char}

theorem runsOut_itemRound (item : Reader α) (taken : List α) :
    RunsOut ((itemRound item taken).read []) := by
  rw [itemRound_read]
  apply RunsOut.andThen
  cases taken with
  | nil => exact runsOut_next .list
  | cons => exact runsOut_next .list

theorem needsAll_itemRound_close (item : Reader α) (taken : List α) :
    NeedsAll (itemRound item taken).read [']'] (.done taken.reverse) := by
  apply needsAll_char (runsOut_itemRound item taken)
  intro cs
  exact itemRound_done_iff.mpr ⟨rfl, .none (']' :: cs)⟩

theorem firstItem_cons (hc : Starts c) (cs : List Char) :
    firstItem (c :: cs) = .ok (true, c :: cs) :=
  firstItem_eq_item_iff.mpr ⟨skipBlanks_cons hc.not_blank cs, c, cs, rfl, hc.not_bracket⟩

theorem nextItem_cons (hc : Starts c) (cs : List Char) :
    nextItem (',' :: c :: cs) = .ok (true, c :: cs) :=
  nextItem_eq_item_iff.mpr ⟨c :: cs, skipBlanks_cons rfl _, firstItem_cons hc cs⟩

theorem needsAll_taken (hitem : NeedsAll item.read text a) (taken : List α) :
    NeedsAll
      (fun cs => (item.read cs).andThen fun a rest =>
        .ok ((.more (a :: taken) : Turn (List α) (List α)), rest))
      text (.more (a :: taken)) :=
  hitem.andThen_ok fun _ => rfl

theorem needsAll_itemRound_first (hc : Starts c) (hitem : NeedsAll item.read (c :: text) a) :
    NeedsAll (itemRound item []).read (c :: text) (.more [a]) := by
  -- a list that is cut before an item ends in the list and not in the item
  apply NeedsAll.peek (runsOut_itemRound item []) _ (needsAll_taken hitem [])
  intro cs
  rw [itemRound_read]
  change (firstItem (c :: cs)).andThen _ = _
  rw [firstItem_cons hc, Outcome.andThen_ok, if_pos rfl]

theorem needsAll_itemRound_next (hc : Starts c) (hitem : NeedsAll item.read (c :: text) a) (b : α)
    (taken : List α) :
    NeedsAll (itemRound item (b :: taken)).read (',' :: c :: text) (.more (a :: b :: taken)) := by
  have hcomma : NeedsAll (fun cs => (itemRound item (b :: taken)).read (',' :: cs)) (c :: text)
      (.more (a :: b :: taken)) := by
    apply NeedsAll.peek (runsOut_next .value) _ (needsAll_taken hitem (b :: taken))
    intro cs
    rw [itemRound_read]
    change (nextItem (',' :: c :: cs)).andThen _ = _
    rw [nextItem_cons hc, Outcome.andThen_ok, if_pos rfl]
  exact .cons (runsOut_itemRound item (b :: taken)) (fun _ => rfl) hcomma

end

section

variable {item : Reader α} {f : α → Value String}

theorem needsAll_laterItems (hwritable : ∀ a, (f a).Writable)
    (hitem : ∀ a, NeedsAll item.read (f a).write a) (as : List α) (b : α) (taken : List α) :
    NeedsAll (Reader.rounds (itemRound item) (b :: taken)) (Value.writeItems (as.map f))
      ((b :: taken).reverse ++ as) := by
  induction as generalizing b taken with
  | nil =>
      rw [List.append_nil]
      exact NeedsAll.done (needsAll_itemRound_close item (b :: taken))
  | cons a as ih =>
      rcases (hwritable a).starts with ⟨c, text, htext, hc⟩
      have hread := hitem a
      rw [htext] at hread
      have hrest := ih a (b :: taken)
      rw [List.reverse_cons, List.append_assoc] at hrest
      rw [List.map_cons, Value.writeItems, htext]
      exact NeedsAll.more (needsAll_itemRound_next hc hread b taken) hrest

/-- A list needs all of its text if its items do. -/
theorem needsAll_listOf (hwritable : ∀ a, (f a).Writable)
    (hitem : ∀ a, NeedsAll item.read (f a).write a) (as : List α) :
    NeedsAll (listOf item).read (Value.list (as.map f)).write as := by
  have hopen := needsAll_opening '[' rfl .list
  cases as with
  | nil => exact hopen.andThen (NeedsAll.done (needsAll_itemRound_close item []))
  | cons a as =>
      rcases (hwritable a).starts with ⟨c, text, htext, hc⟩
      have hread := hitem a
      rw [htext] at hread
      have hrest := needsAll_laterItems hwritable hitem as a []
      rw [List.map_cons, Value.write, htext]
      exact hopen.andThen (NeedsAll.more (needsAll_itemRound_first hc hread) hrest)

end

/-! ## Lists that are passed over -/

theorem needsAll_skipStart_string (outer : List Bracket) (text : String) :
    NeedsAll (skipStart outer) (writeString text) (Pending.completed outer) := by
  rcases body_write text [] with ⟨literal, hbody, -⟩
  have hstring : NeedsAll
      (fun cs => (skipString.read cs).andThen fun _ rest => .ok (Pending.completed outer, rest))
      (text.toList.flatMap writeChar ++ ['"']) (Pending.completed outer) :=
    (needsAll_skipString hbody).andThen_ok fun _ => rfl
  exact .cons (runsOut_next .value) (fun _ => rfl) hstring

theorem needsAll_laterSkipped (texts : List String) :
    NeedsAll (Reader.rounds skipRound (.after .list [])) (Value.writeItems (texts.map .string))
      () := by
  induction texts with
  | nil =>
      have hclose : NeedsAll (skipRound (.after .list [])).read [']'] (.done ()) :=
        needsAll_char (runsOut_next .list) fun _ => rfl
      exact NeedsAll.done hclose
  | cons text texts ih =>
      have hitem : NeedsAll (skipRound (.after .list [])).read (',' :: writeString text)
          (.more (.after .list [])) :=
        .cons (runsOut_next .list) (fun _ => rfl) (needsAll_skipStart_string [.list] text)
      exact NeedsAll.more hitem ih

theorem needsAll_skipValue_strings (texts : List String) :
    NeedsAll skipValue.read (Value.strings texts).write () := by
  have hopen : NeedsAll (skipRound (.value [])).read ['['] (.more (.opened .list [])) :=
    needsAll_char (runsOut_next .value) fun _ => rfl
  cases texts with
  | nil =>
      have hclose : NeedsAll (skipRound (.opened .list [])).read [']'] (.done ()) :=
        needsAll_char (runsOut_next .list) fun _ => rfl
      exact NeedsAll.more hopen (NeedsAll.done hclose)
  | cons text texts =>
      have hstring := needsAll_skipStart_string [.list] text
      have hfirst : NeedsAll (skipRound (.opened .list [])).read (writeString text)
          (.more (.after .list [])) := by
        apply NeedsAll.peek (runsOut_next .list) _ hstring
        exact fun _ => rfl
      have hitems := NeedsAll.more hfirst (needsAll_laterSkipped texts)
      have hlist := NeedsAll.more hopen hitems
      exact hlist

/-! ## Records -/

theorem needsAll_key (name : String) :
    NeedsAll (fun cs => (stringBody.read cs).andThen fun key rest => .ok (some key, rest))
      (name.toList.flatMap writeChar ++ ['"']) (some name) :=
  (needsAll_stringBody_write name).andThen_ok fun _ => rfl

theorem needsAll_firstKey (name : String) :
    NeedsAll (keyMark false) (writeString name) (some name) :=
  .cons (runsOut_next .object) (fun _ => rfl) (needsAll_key name)

theorem needsAll_nextKey (name : String) :
    NeedsAll (keyMark true) (',' :: writeString name) (some name) := by
  have hquote : NeedsAll (fun cs => nextKey (',' :: cs)) (writeString name) (some name) :=
    .cons (runsOut_next .value) (fun _ => rfl) (needsAll_key name)
  exact .cons (runsOut_next .object) (fun _ => rfl) hquote

theorem needsAll_colon : NeedsAll colon [':'] () :=
  needsAll_char (runsOut_next .object) fun _ => rfl

namespace RecordForm

variable {form : RecordForm α} {begun : Bool} {key text : List Char} {name : String} {a : α}

theorem needsAll_member_field (hkey : NeedsAll (keyMark begun) key (some form.field))
    (hvalue : NeedsAll form.value.read text a) :
    NeedsAll (form.memberRound ⟨begun, none⟩).read (key ++ ':' :: text)
      (.more ⟨true, some a⟩) := by
  apply hkey.andThen
  simp only [if_true, Option.isSome_none, Bool.false_eq_true, if_false]
  exact needsAll_colon.andThen (hvalue.andThen_ok fun _ => rfl)

theorem needsAll_member_other (hkey : NeedsAll (keyMark begun) key (some name))
    (hname : name ≠ form.field) (hskip : NeedsAll skipValue.read text ()) (found? : Option α) :
    NeedsAll (form.memberRound ⟨begun, found?⟩).read (key ++ ':' :: text)
      (.more ⟨true, found?⟩) := by
  apply hkey.andThen
  simp only [if_neg hname]
  exact needsAll_colon.andThen (hskip.andThen_ok fun _ => rfl)

theorem needsAll_member_close (form : RecordForm α) (a : α) :
    NeedsAll (form.memberRound ⟨true, some a⟩).read ['}'] (.done a) :=
  needsAll_char (runsOut_next .object) fun _ => rfl

/-- The members behind the field are passed over. -/
theorem needsAll_laterMembers {members : List (String × Value String)}
    (hmembers : ∀ member ∈ members, member.1 ≠ form.field ∧
      NeedsAll skipValue.read member.2.write ()) (a : α) :
    NeedsAll (Reader.rounds form.memberRound ⟨true, some a⟩) (Value.writeMembers members) a := by
  induction members with
  | nil => exact NeedsAll.done (form.needsAll_member_close a)
  | cons member members ih =>
      rw [List.forall_mem_cons] at hmembers
      rcases hmembers with ⟨⟨hname, hskip⟩, hmembers⟩
      have hmember := needsAll_member_other (needsAll_nextKey member.1) hname hskip (some a)
      exact NeedsAll.more hmember (ih hmembers)

end RecordForm

/-- A record whose field is written first needs all of its text if the field does and the other
members do. -/
theorem needsAll_record {form : RecordForm α} {value : Value String}
    {members : List (String × Value String)} {a : α}
    (hvalue : NeedsAll form.value.read value.write a)
    (hmembers : ∀ member ∈ members, member.1 ≠ form.field ∧
      NeedsAll skipValue.read member.2.write ()) :
    NeedsAll (record form).read (Value.object ((form.field, value) :: members)).write a := by
  have hfield := RecordForm.needsAll_member_field (needsAll_firstKey form.field) hvalue
  have hrest := RecordForm.needsAll_laterMembers hmembers a
  exact .cons (runsOut_next .value) (fun _ => rfl) (NeedsAll.more hfield hrest)

/-! ## Whole texts -/

theorem RunsOut.parse {reader : Reader α} {text : String} (h : RunsOut (reader.read text.toList))
    (hline : OneLine text.toList) :
    ∃ error, reader.parse text = .error error ∧ error.cause.category = .incomplete ∧
      error.position = ⟨1, text.utf8ByteSize⟩ := by
  rcases h with ⟨fault, hfault, hcategory, hleft⟩
  exact ⟨_, hline.parse_eq_error hfault hleft, hcategory, rfl⟩

theorem NeedsAll.parse_cut {reader : Reader α} {value : Value String} {a : α}
    (h : NeedsAll reader.read value.write a) (hwritable : value.Writable) {front back : String}
    (htext : front ++ back = value.text) (hback : back ≠ "") :
    ∃ error, reader.parse front = .error error ∧ error.cause.category = .incomplete ∧
      error.position = ⟨1, front.utf8ByteSize⟩ := by
  have hwrite : value.write = front.toList ++ back.toList := by
    rw [← String.toList_append, htext, Value.text, String.toList_ofList]
  have hline := hwritable.oneLine
  rw [hwrite, oneLine_append] at hline
  apply RunsOut.parse _ hline.1
  cases hchars : back.toList with
  | nil => exact absurd (String.toList_eq_nil_iff.mp hchars) hback
  | cons c cs =>
      rw [hchars] at hwrite
      exact h.cut front.toList c cs hwrite

end CaskOrder.Json
