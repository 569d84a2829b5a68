import CaskOrder.Proofs.Json.Writing

/-!
# Texts that are cut off

A reader that needs all of a text takes the text off whatever follows it, and if the text is cut
anywhere, runs out of it: the fault is that the text is incomplete, and it is found at the end.

Reading one thing after the other keeps this property, and so does reading round after round, so
it is shown for characters first, and then for strings, which are made of them.
-/

namespace CaskOrder.Json

open Grammar

/-- The text is incomplete, and this is found at its end. -/
def RunsOut (outcome : Outcome α) : Prop :=
  ∃ fault, outcome = .error fault ∧ fault.cause.category = .incomplete ∧ fault.left = 0

/-- The reader takes the text off whatever follows it, and needs it to its last character. -/
structure NeedsAll (read : List Char → Outcome α) (text : List Char) (a : α) : Prop where
  whole : ∀ rest, read (text ++ rest) = .ok (a, rest)
  cut : ∀ front c back, text = front ++ c :: back → RunsOut (read front)

theorem runsOut_here (inside : Unfinished) :
    RunsOut (.error (.here (.unexpectedEnd inside) []) : Outcome α) :=
  ⟨_, rfl, rfl, rfl⟩

theorem runsOut_next (inside : Unfinished) :
    RunsOut (.error (.next (.unexpectedEnd inside) []) : Outcome α) :=
  ⟨_, rfl, rfl, rfl⟩

theorem RunsOut.andThen {outcome : Outcome α} (h : RunsOut outcome)
    (next : α → List Char → Outcome β) : RunsOut (outcome.andThen next) := by
  rcases h with ⟨fault, hfault, hcategory, hleft⟩
  rw [hfault]
  exact ⟨fault, rfl, hcategory, hleft⟩

/-! ## One thing after the other -/

section

variable {read next : List Char → Outcome α} {text : List Char} {a : α} {c : Char}

theorem needsAll_nil (a : α) : NeedsAll (fun cs => .ok (a, cs)) [] a where
  whole _ := rfl
  cut front c back h := by simp at h

theorem NeedsAll.cons (hnil : RunsOut (read [])) (hcons : ∀ cs, read (c :: cs) = next cs)
    (hnext : NeedsAll next text a) : NeedsAll read (c :: text) a where
  whole rest := (hcons _).trans (hnext.whole rest)
  cut front d back h := by
    cases front with
    | nil => exact hnil
    | cons e front =>
        rw [List.cons_append, List.cons.injEq] at h
        rw [← h.1, hcons]
        exact hnext.cut front d back h.2

/-- The first character is looked at before it is read. -/
theorem NeedsAll.peek (hnil : RunsOut (read [])) (hcons : ∀ cs, read (c :: cs) = next (c :: cs))
    (hnext : NeedsAll next (c :: text) a) : NeedsAll read (c :: text) a where
  whole rest := (hcons _).trans (hnext.whole rest)
  cut front d back h := by
    cases front with
    | nil => exact hnil
    | cons e front =>
        have hc : c = e := (List.cons.inj h).1
        rw [← hc, hcons, hc]
        exact hnext.cut (e :: front) d back h

theorem needsAll_char (hnil : RunsOut (read [])) (hcons : ∀ cs, read (c :: cs) = .ok (a, cs)) :
    NeedsAll read [c] a :=
  .cons hnil hcons (needsAll_nil a)

/-- A text that is cut is cut in its front part, or behind it. -/
theorem cut_append {first second front back : List Char}
    (h : first ++ second = front ++ c :: back) :
    (∃ middle, first = front ++ c :: middle) ∨
      ∃ middle, front = first ++ middle ∧ second = middle ++ c :: back := by
  rcases List.append_eq_append_iff.mp h with ⟨middle, hfront, hsecond⟩ | ⟨middle, hfirst, hback⟩
  · exact .inr ⟨middle, hfront, hsecond⟩
  · cases middle with
    | nil => exact .inr ⟨[], by simpa using hfirst.symm, hback.symm⟩
    | cons d middle =>
        rw [List.cons_append, List.cons.injEq] at hback
        rw [hback.1]
        exact .inl ⟨middle, hfirst⟩

theorem NeedsAll.andThen {next : α → List Char → Outcome β} {text' : List Char} {b : β}
    (hread : NeedsAll read text a) (hnext : NeedsAll (next a) text' b) :
    NeedsAll (fun cs => (read cs).andThen next) (text ++ text') b where
  whole rest := by
    rw [List.append_assoc, hread.whole]
    exact hnext.whole rest
  cut front c back h := by
    rcases cut_append h with ⟨middle, htext⟩ | ⟨middle, hfront, htext⟩
    · exact (hread.cut front c middle htext).andThen next
    · rw [hfront, hread.whole]
      exact hnext.cut middle c back htext

theorem NeedsAll.andThen_ok {next : α → List Char → Outcome β} {b : β}
    (hread : NeedsAll read text a) (hnext : ∀ rest, next a rest = .ok (b, rest)) :
    NeedsAll (fun cs => (read cs).andThen next) text b := by
  have hnil : NeedsAll (next a) [] b := by
    rw [funext hnext]
    exact needsAll_nil b
  have hboth := hread.andThen hnil
  rw [List.append_nil] at hboth
  exact hboth

end

/-! ## Round after round -/

section

variable {round : σ → Reader (Turn σ α)} {state state' : σ} {text text' : List Char} {a : α}

theorem NeedsAll.done (hround : NeedsAll (round state).read text (.done a)) :
    NeedsAll (Reader.rounds round state) text a := by
  rw [funext (Reader.rounds_eq round state)]
  exact hround.andThen_ok fun _ => rfl

theorem NeedsAll.more (hround : NeedsAll (round state).read text (.more state'))
    (hrest : NeedsAll (Reader.rounds round state') text' a) :
    NeedsAll (Reader.rounds round state) (text ++ text') a := by
  rw [funext (Reader.rounds_eq round state)]
  exact hround.andThen hrest

end

/-! ## Characters -/

theorem needsAll_word (inside : Unfinished) (otherwise : Cause) (letters : List Char) :
    NeedsAll (word (.unexpectedEnd inside) otherwise letters) letters () := by
  induction letters with
  | nil => exact needsAll_nil ()
  | cons letter letters ih =>
      apply NeedsAll.cons (runsOut_here inside) _ ih
      intro cs
      rw [word, if_pos rfl]

theorem utf8Size_of_hexDigit {c : Char} {n : Nat} (hdigit : HexDigit c n) : c.utf8Size = 1 := by
  have hlt : n < 16 := by
    rcases hdigit with h | h
    · exact (List.getElem?_eq_some_iff.mp h).1
    · exact (List.getElem?_eq_some_iff.mp h).1
  interval_cases n <;> rcases hdigit with h | h <;> cases h <;> rfl

theorem byteCount_of_codeUnit {cs rest : List Char} {n : Nat} (hunit : CodeUnit cs n rest) :
    Text.byteCount cs = 4 + Text.byteCount rest := by
  rcases hunit with ⟨d₃, d₂, d₁, d₀, n₃, n₂, n₁, n₀, rfl, h₃, h₂, h₁, h₀, -⟩
  simp only [Text.byteCount_cons, utf8Size_of_hexDigit h₃, utf8Size_of_hexDigit h₂,
    utf8Size_of_hexDigit h₁, utf8Size_of_hexDigit h₀]
  omega

/-- Digits that are missing are not told from other characters before there are four bytes. -/
theorem runsOut_codeUnit {cs : List Char} (hbytes : Text.byteCount cs < 4) :
    RunsOut (codeUnit cs) := by
  cases hread : codeUnit cs with
  | ok found =>
      have hunit := byteCount_of_codeUnit (codeUnit_eq_ok_iff.mp hread)
      omega
  | error fault =>
      unfold codeUnit at hread
      split at hread
      · cases hread
      · rw [if_pos hbytes] at hread
        rw [← hread]
        exact runsOut_here .string

theorem CodeUnit.append {text : List Char} {n : Nat} (hunit : CodeUnit text n [])
    (rest : List Char) : CodeUnit (text ++ rest) n rest := by
  rcases hunit with ⟨d₃, d₂, d₁, d₀, n₃, n₂, n₁, n₀, rfl, hdigits⟩
  exact ⟨d₃, d₂, d₁, d₀, n₃, n₂, n₁, n₀, rfl, hdigits⟩

theorem CodeUnit.split {cs rest : List Char} {n : Nat} (hunit : CodeUnit cs n rest) :
    ∃ text, cs = text ++ rest ∧ CodeUnit text n [] := by
  rcases hunit with ⟨d₃, d₂, d₁, d₀, n₃, n₂, n₁, n₀, rfl, hdigits⟩
  exact ⟨[d₃, d₂, d₁, d₀], rfl, d₃, d₂, d₁, d₀, n₃, n₂, n₁, n₀, rfl, hdigits⟩

theorem needsAll_codeUnit {text : List Char} {n : Nat} (hunit : CodeUnit text n []) :
    NeedsAll codeUnit text n where
  whole rest := codeUnit_eq_ok_iff.mpr (hunit.append rest)
  cut front c back h := by
    -- what is left of the four digits has fewer than four bytes
    have hbytes := byteCount_of_codeUnit hunit
    have hpos := c.utf8Size_pos
    apply runsOut_codeUnit
    rw [h, Text.byteCount_append, Text.byteCount_cons, Text.byteCount_nil] at hbytes
    omega

section

variable {units : List Char → Outcome α} {value : Char → α}

theorem needsAll_escape_letter {letter c : Char} (hescaped : Escaped letter c) :
    NeedsAll (escape units value) [letter] (value c) := by
  apply needsAll_char (runsOut_here .string)
  intro cs
  exact escape_eq_ok_iff.mpr (.inl ⟨letter, c, rfl, hescaped, rfl⟩)

theorem needsAll_escape_unit {text : List Char} {a : α} (hunits : NeedsAll units text a) :
    NeedsAll (escape units value) ('u' :: text) a :=
  .cons (runsOut_here .string) (fun _ => rfl) hunits

end

theorem needsAll_skipChar {text : List Char} {piece : Piece} (hpiece : PieceAt text piece []) :
    NeedsAll skipChar text (.more ()) := by
  cases hpiece with
  | plain _ hquote hbackslash hcode =>
      exact needsAll_char (runsOut_here .string) (skipChar_plain hquote hbackslash hcode)
  | letter _ hescaped =>
      exact .cons (runsOut_here .string) (fun _ => rfl) (needsAll_escape_letter hescaped)
  | unit hunit =>
      apply NeedsAll.cons (runsOut_here .string) fun _ => rfl
      apply needsAll_escape_unit
      exact (needsAll_codeUnit hunit).andThen_ok fun _ => rfl

theorem needsAll_stringChar_unit {text : List Char} {c : Char} (hchar : NeedsAll unitChar text c) :
    NeedsAll stringChar ('\\' :: 'u' :: text) (some c) := by
  apply NeedsAll.cons (runsOut_here .string) fun _ => rfl
  apply needsAll_escape_unit
  exact hchar.andThen_ok fun _ => rfl

theorem needsAll_unitChar {text : List Char} {n : Nat} (hunit : CodeUnit text n [])
    (hhigh : isHighHalf n = false) (hlow : isLowHalf n = false) :
    NeedsAll unitChar text (Char.ofNat n) := by
  apply (needsAll_codeUnit hunit).andThen_ok
  intro rest
  simp [hhigh, hlow]

theorem needsAll_unitChar_halves {text text' : List Char} {high low : Nat}
    (hfirst : CodeUnit text high []) (hsecond : CodeUnit text' low [])
    (hhigh : isHighHalf high = true) (hlow : isLowHalf low = true) :
    NeedsAll unitChar (text ++ (['\\', 'u'] ++ text')) (joinHalves high low) := by
  have hnot : isLowHalf high = false := by
    cases hboth : isLowHalf high with
    | false => rfl
    | true => simp [not_high_of_low hboth] at hhigh
  apply (needsAll_codeUnit hfirst).andThen
  rw [hnot, hhigh]
  apply (needsAll_word .string .unfinishedPair ['\\', 'u']).andThen
  apply (needsAll_codeUnit hsecond).andThen_ok
  intro rest
  rw [if_pos hlow]

/-- A piece does not depend on what follows it. -/
theorem PieceAt.split {cs rest : List Char} {piece : Piece} (hpiece : PieceAt cs piece rest) :
    ∃ text, cs = text ++ rest ∧ PieceAt text piece [] := by
  cases hpiece with
  | plain _ hquote hbackslash hcode => exact ⟨_, rfl, .plain [] hquote hbackslash hcode⟩
  | letter _ hescaped => exact ⟨['\\', _], rfl, .letter [] hescaped⟩
  | unit hunit =>
      rcases hunit.split with ⟨text, htext, hunit⟩
      exact ⟨'\\' :: 'u' :: text, by rw [htext]; rfl, .unit hunit⟩

theorem CharAt.split {cs rest : List Char} {c : Char} (hchar : CharAt cs c rest) :
    ∃ text, cs = text ++ rest ∧ CharAt text c [] := by
  cases hchar with
  | alone hpiece halone =>
      rcases hpiece.split with ⟨text, hcs, hpiece⟩
      exact ⟨text, hcs, .alone hpiece halone⟩
  | halves hfirst hsecond hhigh hlow =>
      rcases hsecond.split with ⟨second, hmid, hsecond⟩
      cases hfirst with
      | unit hunit =>
          rcases hunit.split with ⟨first, hfirst, hunit⟩
          refine ⟨'\\' :: 'u' :: (first ++ second), by rw [hfirst, hmid]; simp, ?_⟩
          exact .halves (.unit (hunit.append second)) hsecond hhigh hlow

theorem needsAll_stringChar {text : List Char} {c : Char} (hchar : CharAt text c []) :
    NeedsAll stringChar text (some c) := by
  cases hchar with
  | alone hpiece halone =>
      cases hpiece with
      | plain _ hquote hbackslash hcode =>
          cases halone
          exact needsAll_char (runsOut_here .string) (stringChar_plain hquote hbackslash hcode)
      | letter _ hescaped =>
          cases halone
          exact .cons (runsOut_here .string) (fun _ => rfl) (needsAll_escape_letter hescaped)
      | unit hunit =>
          cases halone with
          | unit hhigh hlow => exact needsAll_stringChar_unit (needsAll_unitChar hunit hhigh hlow)
  | halves hfirst hsecond hhigh hlow =>
      cases hsecond with
      | unit hsecond =>
          cases hfirst with
          | unit hfirst =>
              rcases hfirst.split with ⟨first, htext, hfirst⟩
              rw [htext]
              exact needsAll_stringChar_unit (needsAll_unitChar_halves hfirst hsecond hhigh hlow)

/-! ## Strings -/

theorem needsAll_skipString {text : List Char} {literal : Literal} (hbody : Body text literal []) :
    NeedsAll skipString.read text () := by
  induction literal generalizing text with
  | nil =>
      rw [body_nil_iff.mp hbody]
      exact NeedsAll.done (needsAll_char (runsOut_here .string) fun _ => rfl)
  | cons piece literal ih =>
      rcases body_cons_iff.mp hbody with ⟨mid, hpiece, hbody⟩
      rcases hpiece.split with ⟨first, htext, hpiece⟩
      rw [htext]
      exact NeedsAll.more (needsAll_skipChar hpiece) (ih hbody)

theorem needsAll_stringRounds {text chars : List Char} (hspells : Spells text chars [])
    (taken : List Char) :
    NeedsAll (Reader.rounds stringRound taken) text (String.ofList (taken.reverse ++ chars)) := by
  induction chars generalizing text taken with
  | nil =>
      cases hspells
      have hquote : NeedsAll stringChar ['"'] none :=
        needsAll_char (runsOut_here .string) fun _ => rfl
      rw [List.append_nil]
      exact NeedsAll.done (hquote.andThen_ok fun _ => rfl)
  | cons c chars ih =>
      cases hspells with
      | cons hchar hspells =>
          rcases hchar.split with ⟨first, htext, hchar⟩
          have hround : NeedsAll (stringRound taken).read first (.more (c :: taken)) :=
            (needsAll_stringChar hchar).andThen_ok fun _ => rfl
          have hrest := ih hspells (c :: taken)
          rw [List.reverse_cons, List.append_assoc] at hrest
          rw [htext]
          exact hround.more hrest

theorem needsAll_stringBody {text chars : List Char} (hspells : Spells text chars []) :
    NeedsAll stringBody.read text (String.ofList chars) :=
  needsAll_stringRounds hspells []

end CaskOrder.Json
