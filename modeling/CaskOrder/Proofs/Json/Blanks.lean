import CaskOrder.Json.Grammar
import Mathlib.Tactic

/-!
# Blanks

Skipping blanks passes over exactly the blanks of the grammar.  The grammar may stop
before any of them, while skipping stops at the first character that is none; what both
agree on is the text behind the blanks, if it does not begin with one itself.
-/

namespace CaskOrder.Json

open Grammar

variable {c : Char} {cs ds rest : List Char}

theorem isBlank_iff : isBlank c = true ↔ c ∈ [' ', '\t', '\n', '\r'] := by
  simp only [isBlank, Bool.or_eq_true, decide_eq_true_eq, List.mem_cons, List.not_mem_nil,
    or_false]
  tauto

theorem blanks_skipBlanks (cs : List Char) : Blanks cs (skipBlanks cs) := by
  induction cs with
  | nil => exact .none []
  | cons c cs ih =>
      rw [skipBlanks, List.dropWhile_cons]
      split
      · next hblank => exact .some (isBlank_iff.mp hblank) ih
      · exact .none (c :: cs)

theorem blanks_trans {es : List Char} (hfirst : Blanks cs ds) (hsecond : Blanks ds es) :
    Blanks cs es := by
  induction hfirst with
  | none => exact hsecond
  | some hblank _ ih => exact .some hblank (ih hsecond)

theorem skipBlanks_eq_of_blanks (hblanks : Blanks cs ds) : skipBlanks cs = skipBlanks ds := by
  induction hblanks with
  | none cs => rfl
  | some hblank _ ih =>
      rw [← ih, skipBlanks, List.dropWhile_cons_of_pos (isBlank_iff.mpr hblank)]
      rfl

theorem skipBlanks_cons (hc : isBlank c = false) (cs : List Char) :
    skipBlanks (c :: cs) = c :: cs := by
  rw [skipBlanks, List.dropWhile_cons_of_neg]
  simp [hc]

theorem blanks_cons_iff (hc : isBlank c = false) :
    Blanks cs (c :: rest) ↔ skipBlanks cs = c :: rest := by
  constructor
  · intro hblanks
    rw [skipBlanks_eq_of_blanks hblanks, skipBlanks_cons hc]
  · intro hskip
    exact hskip ▸ blanks_skipBlanks cs

theorem blanks_nil_iff : Blanks cs [] ↔ skipBlanks cs = [] := by
  constructor
  · exact skipBlanks_eq_of_blanks
  · intro hskip
    exact hskip ▸ blanks_skipBlanks cs

end CaskOrder.Json
