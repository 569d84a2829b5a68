import CaskOrder.Proofs.Json.Skipping
import CaskOrder.Proofs.Json.Writing

/-!
# What a text decodes to

The grammar leaves one freedom: a numeral may stop before its last digit.  What follows a
value takes it back, since a comma, a bracket or the end of the text cannot go on with a
numeral.  So where a value ends is known, and then so is the value, by its first character
and by what it consists of.

The main statement is that a value that is written is the only one that its text decodes to.
-/

namespace CaskOrder.Json

open Grammar

/-! ## Literals -/

theorem pieceAt_unique {cs mid mid' : List Char} {piece piece' : Piece}
    (h : PieceAt cs piece mid) (h' : PieceAt cs piece' mid') : piece = piece' ∧ mid = mid' := by
  cases h with
  | plain _ hquote hbackslash _ =>
      cases h' with
      | plain => exact ⟨rfl, rfl⟩
      | letter => exact absurd rfl hbackslash
      | unit => exact absurd rfl hbackslash
  | letter _ hescaped =>
      cases h' with
      | plain _ _ hbackslash _ => exact absurd rfl hbackslash
      | letter _ hescaped' =>
          rw [← escapeLetters_lookup_eq_some_iff] at hescaped hescaped'
          rw [hescaped, Option.some.injEq] at hescaped'
          exact ⟨congrArg Piece.char hescaped', rfl⟩
      | unit => cases hescaped
  | unit hunit =>
      cases h' with
      | plain _ _ hbackslash _ => exact absurd rfl hbackslash
      | letter _ hescaped => cases hescaped
      | unit hunit' =>
          rw [← codeUnit_eq_ok_iff] at hunit hunit'
          rw [hunit, Except.ok.injEq, Prod.mk.injEq] at hunit'
          exact ⟨congrArg Piece.unit hunit'.1, hunit'.2⟩

theorem not_pieceAt_quote {cs mid : List Char} {piece : Piece} :
    ¬PieceAt ('"' :: cs) piece mid := by
  intro h
  cases h with
  | plain _ hquote _ _ => exact hquote rfl

theorem body_unique {cs rest rest' : List Char} {literal literal' : Literal}
    (h : Body cs literal rest) (h' : Body cs literal' rest') :
    literal = literal' ∧ rest = rest' := by
  induction literal generalizing cs literal' with
  | nil =>
      rw [body_nil_iff] at h
      cases literal' with
      | nil =>
          rw [body_nil_iff, h, List.cons.injEq] at h'
          exact ⟨rfl, h'.2⟩
      | cons piece' literal' =>
          obtain ⟨mid, hpiece, -⟩ := body_cons_iff.mp h'
          rw [h] at hpiece
          exact absurd hpiece not_pieceAt_quote
  | cons piece literal ih =>
      obtain ⟨mid, hpiece, hbody⟩ := body_cons_iff.mp h
      cases literal' with
      | nil =>
          rw [body_nil_iff] at h'
          rw [h'] at hpiece
          exact absurd hpiece not_pieceAt_quote
      | cons piece' literal' =>
          obtain ⟨mid', hpiece', hbody'⟩ := body_cons_iff.mp h'
          obtain ⟨hpieces, hmid⟩ := pieceAt_unique hpiece hpiece'
          rw [← hmid] at hbody'
          obtain ⟨hliterals, hrest⟩ := ih hbody hbody'
          rw [hpieces, hliterals]
          exact ⟨rfl, hrest⟩

/-! ## Values -/

theorem number_head {c : Char} {cs rest : List Char} (hnumber : Number (c :: cs) rest) :
    c = '-' ∨ c.isDigit = true := by
  rcases number_iff.mp hnumber with hunsigned | ⟨ds, hds, -⟩
  · obtain ⟨d, ds, hds, hd⟩ := unsigned_head hunsigned
    rw [(List.cons.inj hds).1]
    exact .inr hd
  · exact .inl (List.cons.inj hds).1

/-- A value and what it consists of, behind its first character. -/
inductive Opened : Char → List Char → Value Literal → List Char → Prop where
  | null (cs rest : List Char) : Opened 'n' cs .null rest
  | true (cs rest : List Char) : Opened 't' cs (.bool true) rest
  | false (cs rest : List Char) : Opened 'f' cs (.bool false) rest
  | number {c : Char} {cs numeral rest : List Char} :
      c = '-' ∨ c.isDigit = true → Opened c cs (.number numeral) rest
  | string {cs rest : List Char} {literal : Literal} :
      Body cs literal rest → Opened '"' cs (.string literal) rest
  | emptyList {cs rest : List Char} :
      Blanks cs (']' :: rest) → Opened '[' cs (.list []) rest
  | list {cs rest : List Char} {items : List (Value Literal)} :
      Items cs items rest → Opened '[' cs (.list items) rest
  | emptyObject {cs rest : List Char} :
      Blanks cs ('}' :: rest) → Opened '{' cs (.object []) rest
  | object {cs rest : List Char} {members : List (Literal × Value Literal)} :
      Members cs members rest → Opened '{' cs (.object members) rest

theorem opened_of_begins {c : Char} {cs rest : List Char} {value : Value Literal}
    (hbegins : Begins (c :: cs) value rest) : Opened c cs value rest := by
  generalize htext : c :: cs = text at hbegins
  cases hbegins with
  | number hnumber =>
      rw [← htext] at hnumber
      exact .number (number_head hnumber)
  | null | true | false =>
      cases htext
      constructor
  | string hbody =>
      cases htext
      exact .string hbody
  | emptyList hclose =>
      cases htext
      exact .emptyList hclose
  | list hitems =>
      cases htext
      exact .list hitems
  | emptyObject hclose =>
      cases htext
      exact .emptyObject hclose
  | object hmembers =>
      cases htext
      exact .object hmembers

/-- Where a value begins and ends is known, if what follows it cannot go on with a numeral. -/
theorem bounds_unique {cs ds ds' rest rest' : List Char} {value value' : Value Literal}
    (hblanks : Blanks cs ds) (hbegins : Begins ds value rest) (hends : Ends rest)
    (hblanks' : Blanks cs ds') (hbegins' : Begins ds' value' rest') (hends' : Ends rest') :
    ds = ds' ∧ rest = rest' := by
  have hskip := skipValue_complete hblanks hbegins hends
  rw [skipValue_complete hblanks' hbegins' hends', Except.ok.injEq, Prod.mk.injEq] at hskip
  constructor
  · rw [← skipBlanks_of_begins hblanks hbegins, skipBlanks_of_begins hblanks' hbegins']
  · exact hskip.2.symm

theorem begins_number_unique {numeral rest : List Char} {value : Value Literal}
    (hnumber : Number (numeral ++ rest) rest) (h : Begins (numeral ++ rest) value rest) :
    value = .number numeral := by
  generalize htext : numeral ++ rest = text at hnumber h
  cases h with
  | number => rw [List.append_cancel_right htext]
  | null | true | false | string | emptyList | list | emptyObject | object =>
      exact absurd (number_head hnumber) (by decide)

theorem not_items_of_close {cs rest rest' : List Char} {items : List (Value Literal)}
    (hclose : Blanks cs (']' :: rest)) : ¬Items cs items rest' := by
  intro hitems
  obtain ⟨c, ds, hskip, hc⟩ := items_starts hitems
  rw [(blanks_cons_iff rfl).mp hclose, List.cons.injEq] at hskip
  exact hc.not_bracket hskip.1.symm

theorem not_members_of_close {cs rest rest' : List Char}
    {members : List (Literal × Value Literal)} (hclose : Blanks cs ('}' :: rest)) :
    ¬Members cs members rest' := by
  intro hmembers
  obtain ⟨ds, hskip⟩ := members_starts hmembers
  rw [(blanks_cons_iff rfl).mp hclose] at hskip
  cases hskip

theorem blanks_mark_unique {c d : Char} {cs ds es : List Char} (hc : isBlank c = false)
    (hd : isBlank d = false) (h : Blanks cs (c :: ds)) (h' : Blanks cs (d :: es)) :
    c = d ∧ ds = es := by
  rw [blanks_cons_iff hc] at h
  rw [blanks_cons_iff hd, h, List.cons.injEq] at h'
  exact h'

/-- The bounds of an item and the mark behind it are known. -/
theorem marked_unique {c c' : Char} {cs ds ds' es es' tail tail' : List Char}
    {value value' : Value Literal} (hblanks : Blanks cs ds) (hbegins : Begins ds value es)
    (hmark : Blanks es (c :: tail)) (hc : c ∈ [',', ']', '}']) (hblanks' : Blanks cs ds')
    (hbegins' : Begins ds' value' es') (hmark' : Blanks es' (c' :: tail'))
    (hc' : c' ∈ [',', ']', '}']) : ds = ds' ∧ es = es' ∧ c = c' ∧ tail = tail' := by
  have hends : Ends es := ends_of_blanks hmark (ends_cons hc tail)
  have hends' : Ends es' := ends_of_blanks hmark' (ends_cons hc' tail')
  obtain ⟨hds, hes⟩ := bounds_unique hblanks hbegins hends hblanks' hbegins' hends'
  subst hes
  have hnotBlank : ∀ mark ∈ [',', ']', '}'], isBlank mark = false := by simp [isBlank]
  exact ⟨hds, rfl, blanks_mark_unique (hnotBlank c hc) (hnotBlank c' hc') hmark hmark'⟩

/-- A key is known from its beginning. -/
theorem key_unique {cs ds ds' es es' fs fs' : List Char} {key key' : Literal}
    (hquote : Blanks cs ('"' :: ds)) (hbody : Body ds key es) (hcolon : Blanks es (':' :: fs))
    (hquote' : Blanks cs ('"' :: ds')) (hbody' : Body ds' key' es')
    (hcolon' : Blanks es' (':' :: fs')) : key = key' ∧ fs = fs' := by
  have hds : ds = ds' := (blanks_mark_unique rfl rfl hquote hquote').2
  subst hds
  obtain ⟨hkey, hes⟩ := body_unique hbody hbody'
  subst hes
  exact ⟨hkey, (blanks_mark_unique rfl rfl hcolon hcolon').2⟩

mutual

/-- A text up to a given rest is at most one value. -/
theorem begins_unique {cs rest : List Char} {value value' : Value Literal}
    (h : Begins cs value rest) (h' : Begins cs value' rest) : value = value' := by
  cases h with
  | null | true | false =>
      cases opened_of_begins h' with
      | number hc => exact absurd hc (by decide)
      | _ => rfl
  | number hnumber => exact (begins_number_unique hnumber h').symm
  | string hbody =>
      cases opened_of_begins h' with
      | number hc => exact absurd hc (by decide)
      | string hbody' => rw [(body_unique hbody hbody').1]
  | emptyList hclose =>
      cases opened_of_begins h' with
      | number hc => exact absurd hc (by decide)
      | emptyList => rfl
      | list hitems' => exact absurd hitems' (not_items_of_close hclose)
  | list hitems =>
      cases opened_of_begins h' with
      | number hc => exact absurd hc (by decide)
      | emptyList hclose' => exact absurd hitems (not_items_of_close hclose')
      | list hitems' => rw [items_unique hitems hitems']
  | emptyObject hclose =>
      cases opened_of_begins h' with
      | number hc => exact absurd hc (by decide)
      | emptyObject => rfl
      | object hmembers' => exact absurd hmembers' (not_members_of_close hclose)
  | object hmembers =>
      cases opened_of_begins h' with
      | number hc => exact absurd hc (by decide)
      | emptyObject hclose' => exact absurd hmembers (not_members_of_close hclose')
      | object hmembers' => rw [members_unique hmembers hmembers']

theorem items_unique {cs rest : List Char} {items items' : List (Value Literal)}
    (h : Items cs items rest) (h' : Items cs items' rest) : items = items' := by
  match h, h' with
  | .last hblanks hbegins hclose, .last hblanks' hbegins' hclose' =>
      obtain ⟨rfl, rfl, -, -⟩ := marked_unique hblanks hbegins hclose (by simp) hblanks' hbegins'
        hclose' (by simp)
      rw [begins_unique hbegins hbegins']
  | .more hblanks hbegins hcomma hitems, .more hblanks' hbegins' hcomma' hitems' =>
      obtain ⟨rfl, rfl, -, rfl⟩ := marked_unique hblanks hbegins hcomma (by simp) hblanks' hbegins'
        hcomma' (by simp)
      rw [begins_unique hbegins hbegins', items_unique hitems hitems']
  | .last hblanks hbegins hclose, .more hblanks' hbegins' hcomma' _ =>
      have hmarks := marked_unique hblanks hbegins hclose (by simp) hblanks' hbegins' hcomma'
        (by simp)
      exact absurd hmarks.2.2.1 (by decide)
  | .more hblanks hbegins hcomma _, .last hblanks' hbegins' hclose' =>
      have hmarks := marked_unique hblanks hbegins hcomma (by simp) hblanks' hbegins' hclose'
        (by simp)
      exact absurd hmarks.2.2.1 (by decide)

theorem members_unique {cs rest : List Char} {members members' : List (Literal × Value Literal)}
    (h : Members cs members rest) (h' : Members cs members' rest) : members = members' := by
  match h, h' with
  | .last hquote hbody hcolon hblanks hbegins hclose,
    .last hquote' hbody' hcolon' hblanks' hbegins' hclose' =>
      obtain ⟨rfl, rfl⟩ := key_unique hquote hbody hcolon hquote' hbody' hcolon'
      obtain ⟨rfl, rfl, -, -⟩ := marked_unique hblanks hbegins hclose (by simp) hblanks' hbegins'
        hclose' (by simp)
      rw [begins_unique hbegins hbegins']
  | .more hquote hbody hcolon hblanks hbegins hcomma hmembers,
    .more hquote' hbody' hcolon' hblanks' hbegins' hcomma' hmembers' =>
      obtain ⟨rfl, rfl⟩ := key_unique hquote hbody hcolon hquote' hbody' hcolon'
      obtain ⟨rfl, rfl, -, rfl⟩ := marked_unique hblanks hbegins hcomma (by simp) hblanks' hbegins'
        hcomma' (by simp)
      rw [begins_unique hbegins hbegins', members_unique hmembers hmembers']
  | .last hquote hbody hcolon hblanks hbegins hclose,
    .more hquote' hbody' hcolon' hblanks' hbegins' hcomma' _ =>
      obtain ⟨-, rfl⟩ := key_unique hquote hbody hcolon hquote' hbody' hcolon'
      have hmarks := marked_unique hblanks hbegins hclose (by simp) hblanks' hbegins' hcomma'
        (by simp)
      exact absurd hmarks.2.2.1 (by decide)
  | .more hquote hbody hcolon hblanks hbegins hcomma _,
    .last hquote' hbody' hcolon' hblanks' hbegins' hclose' =>
      obtain ⟨-, rfl⟩ := key_unique hquote hbody hcolon hquote' hbody' hcolon'
      have hmarks := marked_unique hblanks hbegins hcomma (by simp) hblanks' hbegins' hclose'
        (by simp)
      exact absurd hmarks.2.2.1 (by decide)

end

theorem document_unique {cs : List Char} {value value' : Value Literal}
    (h : Document cs value) (h' : Document cs value') : value = value' := by
  obtain ⟨ds, es, hblanks, hbegins, hend⟩ := h
  obtain ⟨ds', es', hblanks', hbegins', hend'⟩ := h'
  have hnil : Ends [] := by constructor <;> simp [NoDigit]
  obtain ⟨hds, hes⟩ := bounds_unique hblanks hbegins (ends_of_blanks hend hnil) hblanks' hbegins'
    (ends_of_blanks hend' hnil)
  rw [← hds, ← hes] at hbegins'
  exact begins_unique hbegins hbegins'

/-! ## Decoded values -/

/-- Lists whose items are paired with those of a third list are equal if no item has two
partners. -/
theorem forall₂_unique {R : α → β → Prop} {as : List α} {bs bs' : List β}
    (hunique : ∀ b ∈ bs, ∀ a b', R a b → R a b' → b' = b) (h : List.Forall₂ R as bs)
    (h' : List.Forall₂ R as bs') : bs' = bs := by
  induction h generalizing bs' with
  | nil =>
      cases h'
      rfl
  | cons hab _ ih =>
      rw [List.forall_mem_cons] at hunique
      cases h' with
      | cons hab' hrest' => rw [hunique.1 _ _ hab hab', ih hunique.2 hrest']

/-- Literals stand for one value. -/
theorem Value.Writable.decodes_unique {decoded : Value String} (hwritable : decoded.Writable) :
    ∀ literals decoded', Value.Decodes literals decoded → Value.Decodes literals decoded' →
      decoded' = decoded := by
  induction hwritable with
  | null | bool | number =>
      intro literals decoded' h h'
      cases h
      cases h'
      rfl
  | string text =>
      intro literals decoded' h h'
      cases h with
      | string htext =>
          cases h' with
          | string htext' =>
              rw [htext, Option.some.injEq] at htext'
              rw [htext']
  | list _ ih =>
      intro literals decoded' h h'
      cases h with
      | list hitems =>
          cases h' with
          | list hitems' => rw [forall₂_unique ih hitems hitems']
  | @object members _ ih =>
      intro literals decoded' h h'
      cases h with
      | object hnames hvalues =>
          cases h' with
          | @object _ members' hnames' hvalues' =>
              have hfst : members'.map Prod.fst = members.map Prod.fst := by
                apply List.map_injective_iff.mpr (Option.some_injective String)
                rw [List.map_map, List.map_map]
                exact hnames'.symm.trans hnames
              have hsnd : members'.map Prod.snd = members.map Prod.snd :=
                forall₂_unique (List.forall_mem_map.mpr ih) hvalues hvalues'
              have hmembers : members' = members :=
                (List.zip_of_prod hfst hsnd).trans (List.zip_of_prod rfl rfl).symm
              rw [hmembers]

/-- The text is a JSON document in one way only, and what it decodes to is the value. -/
def DecodesTo (text : String) (value : Value String) : Prop :=
  ∃ literals, (∀ found, Document text.toList found ↔ found = literals) ∧
    ∀ decoded, Value.Decodes literals decoded ↔ decoded = value

/-- What is written is decoded to the value that was written, and to no other. -/
theorem decodesTo_text {value : Value String} (hwritable : value.Writable) :
    DecodesTo value.text value := by
  obtain ⟨literals, hdocument, hdecodes⟩ := document_of_writable hwritable
  refine ⟨literals, ?_, ?_⟩
  · intro found
    constructor
    · intro hfound
      exact document_unique hfound hdocument
    · intro heq
      rw [heq]
      exact hdocument
  · intro decoded
    constructor
    · intro hdecoded
      exact hwritable.decodes_unique literals decoded hdecodes hdecoded
    · intro heq
      rw [heq]
      exact hdecodes

end CaskOrder.Json
