import CaskOrder.Json.Document
import CaskOrder.Proofs.Json.Writing
import Mathlib.Data.List.TakeWhile

/-!
# Values on one line

Whatever is in the strings of a value, it is written without a control character, and so on
one line: those in a string are escaped, and none stands between the parts of a value.  A place
in such a text is reported on the first line, and its column counts the bytes before it.
-/

namespace CaskOrder.Json

open Grammar

def OneLine (cs : List Char) : Prop :=
  ∀ c ∈ cs, 0x20 ≤ c.toNat

@[simp] theorem oneLine_nil : OneLine [] := by
  simp [OneLine]

@[simp] theorem oneLine_cons (c : Char) (cs : List Char) :
    OneLine (c :: cs) ↔ 0x20 ≤ c.toNat ∧ OneLine cs := by
  simp [OneLine]

@[simp] theorem oneLine_append (cs ds : List Char) :
    OneLine (cs ++ ds) ↔ OneLine cs ∧ OneLine ds := by
  simp only [OneLine, List.forall_mem_append]

/-! ## Strings -/

theorem le_digitChar {n : Nat} (hn : n < 16) : 0x20 ≤ (Nat.digitChar n).toNat := by
  interval_cases n <;> decide

theorem oneLine_writeChar (c : Char) : OneLine (writeChar c) := by
  unfold writeChar
  split_ifs with _ _ _ _ _ _ _ hcontrol
  -- the quote, the backslash and the control characters that have a letter
  iterate 7 simp
  · have hcode : c.toNat < 0x20 := by simpa [isControl] using hcontrol
    simp [le_digitChar (n := c.toNat / 16) (by omega), le_digitChar (n := c.toNat % 16) (by omega)]
  · have hcode : isControl c = false := by simpa using hcontrol
    simp [isControl_eq_false_iff.mp hcode]

theorem oneLine_writeString (text : String) : OneLine (writeString text) := by
  have hbody : OneLine (text.toList.flatMap writeChar) := by
    intro c hc
    obtain ⟨d, -, hd⟩ := List.mem_flatMap.mp hc
    exact oneLine_writeChar d c hd
  simp [writeString, hbody]

/-! ## Numerals -/

theorem le_of_isDigit {c : Char} (hc : c.isDigit = true) : 0x20 ≤ c.toNat := by
  have hzero : '0' ≤ c := by
    simp only [Char.isDigit, Bool.and_eq_true, decide_eq_true_eq] at hc
    exact hc.1
  have hle : '0'.toNat ≤ c.toNat := char_le_iff.mp hzero
  exact Nat.le_trans (by decide) hle

theorem oneLine_of_digits {cs rest : List Char} (hdigits : Digits cs rest) (hrest : OneLine rest) :
    OneLine cs := by
  induction hdigits with
  | one _ hd => simp [le_of_isDigit hd, hrest]
  | more hd _ ih => simp [le_of_isDigit hd, ih hrest]

theorem oneLine_of_whole {cs rest : List Char} (hwhole : Whole cs rest) (hrest : OneLine rest) :
    OneLine cs := by
  cases hwhole with
  | zero => simp [hrest]
  | digits _ hdigits => exact oneLine_of_digits hdigits hrest

theorem oneLine_of_fraction {cs rest : List Char} (hfraction : Fraction cs rest)
    (hrest : OneLine rest) : OneLine cs := by
  cases hfraction with
  | none => exact hrest
  | some hdigits => simp [oneLine_of_digits hdigits hrest]

theorem oneLine_of_sign {cs rest : List Char} (hsign : Sign cs rest) (hrest : OneLine rest) :
    OneLine cs := by
  cases hsign with
  | none => exact hrest
  | plus => simp [hrest]
  | minus => simp [hrest]

theorem oneLine_of_exponent {cs rest : List Char} (hexponent : Exponent cs rest)
    (hrest : OneLine rest) : OneLine cs := by
  cases hexponent with
  | none => exact hrest
  | some hmark hsign hdigits =>
      have htail := oneLine_of_sign hsign (oneLine_of_digits hdigits hrest)
      rcases hmark with rfl | rfl <;> simp [htail]

theorem oneLine_of_number {cs rest : List Char} (hnumber : Number cs rest)
    (hrest : OneLine rest) : OneLine cs := by
  obtain ⟨whole, fraction, exponent, hminus, hwhole, hfraction, hexponent⟩ := hnumber
  have hunsigned : OneLine whole :=
    oneLine_of_whole hwhole (oneLine_of_fraction hfraction (oneLine_of_exponent hexponent hrest))
  cases hminus with
  | none => exact hunsigned
  | some => simp [hunsigned]

/-! ## Values -/

theorem oneLine_writeItems {items : List (Value String)}
    (hitems : ∀ item ∈ items, OneLine item.write) : OneLine (Value.writeItems items) := by
  induction items with
  | nil => simp [Value.writeItems]
  | cons item items ih =>
      rw [List.forall_mem_cons] at hitems
      simp [Value.writeItems, hitems.1, ih hitems.2]

theorem oneLine_writeMembers {members : List (String × Value String)}
    (hmembers : ∀ member ∈ members, OneLine member.2.write) :
    OneLine (Value.writeMembers members) := by
  induction members with
  | nil => simp [Value.writeMembers]
  | cons member members ih =>
      rw [List.forall_mem_cons] at hmembers
      simp [Value.writeMembers, oneLine_writeString, hmembers.1, ih hmembers.2]

theorem Value.Writable.oneLine {value : Value String} (hwritable : value.Writable) :
    OneLine value.write := by
  induction hwritable with
  | null => simp [Value.write]
  | bool flag => cases flag <;> simp [Value.write]
  | @number numeral hnumber =>
      have hwhole : Number numeral [] := by
        simpa using hnumber []
      exact oneLine_of_number hwhole oneLine_nil
  | string text => exact oneLine_writeString text
  | @list items _ ih =>
      cases items with
      | nil => simp [Value.write]
      | cons item items =>
          rw [List.forall_mem_cons] at ih
          simp [Value.write, ih.1, oneLine_writeItems ih.2]
  | @object members _ ih =>
      cases members with
      | nil => simp [Value.write]
      | cons member members =>
          rw [List.forall_mem_cons] at ih
          simp [Value.write, oneLine_writeString, ih.1, oneLine_writeMembers ih.2]

/-! ## Places -/

theorem le_of_mem_utf8EncodeChar {c : Char} (hc : 0x20 ≤ c.toNat) {byte : UInt8}
    (hbyte : byte ∈ String.utf8EncodeChar c) : 0x20 ≤ byte.toNat := by
  have hval : c.val.toNat = c.toNat := rfl
  unfold String.utf8EncodeChar at hbyte
  simp only at hbyte
  -- a single byte is the code itself, and where there are several, none is below 0x80
  split_ifs at hbyte
  all_goals
    simp only [List.mem_cons, List.not_mem_nil, or_false] at hbyte
    rcases hbyte with rfl | rfl | rfl | rfl <;> rw [UInt8.toNat_ofNat'] <;> omega

theorem OneLine.lineFeed_notMem {cs : List Char} (h : OneLine cs) : 10 ∉ Text.utf8 cs := by
  intro hbyte
  rcases List.mem_flatMap.mp hbyte with ⟨c, hc, hbyte⟩
  have hle := le_of_mem_utf8EncodeChar (h c hc) hbyte
  simp at hle

theorem OneLine.position_after {cs : List Char} (h : OneLine cs) :
    Position.after (Text.utf8 cs) = ⟨1, Text.byteCount cs⟩ := by
  have hline : (Text.utf8 cs).count 10 = 0 := List.count_eq_zero.mpr h.lineFeed_notMem
  have hcolumn : (Text.utf8 cs).reverse.takeWhile (· ≠ 10) = (Text.utf8 cs).reverse := by
    rw [List.takeWhile_eq_self_iff]
    intro byte hbyte
    have hne : byte ≠ 10 := ne_of_mem_of_not_mem (List.mem_reverse.mp hbyte) h.lineFeed_notMem
    simpa using hne
  rw [Position.after, hline, hcolumn, List.length_reverse, Text.length_utf8]

/-- A fault at the end of a text on one line. -/
theorem OneLine.parse_eq_error {reader : Reader α} {text : String} {fault : Fault}
    (hline : OneLine text.toList) (hread : reader.read text.toList = .error fault)
    (hleft : fault.left = 0) :
    reader.parse text = .error ⟨fault.cause, ⟨1, text.utf8ByteSize⟩⟩ := by
  have hwhole : reader.readWhole text.toList = .error fault := by
    rw [Reader.readWhole, hread]
  have hbytes : (Text.utf8 text.toList).take (Text.byteCount text.toList - fault.left) =
      Text.utf8 text.toList := by
    rw [hleft, Nat.sub_zero, ← Text.length_utf8, List.take_length]
  rw [Reader.parse, hwhole]
  simp only
  rw [ParseError.ofFault, hbytes, hline.position_after, Text.byteCount_toList]

end CaskOrder.Json
