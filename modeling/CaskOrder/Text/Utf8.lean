/-!
# Texts as UTF-8

Places in a text are counted in bytes, while texts themselves are read character by
character.  This file holds the byte form of a text and its length, and shows that
the byte form determines the text.
-/

namespace CaskOrder.Text

def utf8 (cs : List Char) : List UInt8 :=
  cs.flatMap String.utf8EncodeChar

def byteCount : List Char → Nat
  | [] => 0
  | c :: cs => c.utf8Size + byteCount cs

@[simp] theorem utf8_cons (c : Char) (cs : List Char) :
    utf8 (c :: cs) = String.utf8EncodeChar c ++ utf8 cs := by
  simp [utf8]

@[simp] theorem byteCount_nil : byteCount [] = 0 := rfl

@[simp] theorem byteCount_cons (c : Char) (cs : List Char) :
    byteCount (c :: cs) = c.utf8Size + byteCount cs :=
  rfl

@[simp] theorem byteCount_append (cs ds : List Char) :
    byteCount (cs ++ ds) = byteCount cs + byteCount ds := by
  induction cs with
  | nil => simp
  | cons c cs ih => simp [ih, Nat.add_assoc]

theorem byteCount_le_of_suffix {cs ds : List Char} (h : cs <:+ ds) :
    byteCount cs ≤ byteCount ds := by
  obtain ⟨front, rfl⟩ := h
  rw [byteCount_append]
  exact Nat.le_add_left _ _

theorem length_utf8 (cs : List Char) : (utf8 cs).length = byteCount cs := by
  induction cs with
  | nil => rfl
  | cons c cs ih => simp [ih]

theorem byteCount_toList (text : String) : byteCount text.toList = text.utf8ByteSize := by
  rw [← length_utf8, utf8, String.utf8ByteSize, ← String.utf8Encode_toList, List.utf8Encode,
    List.size_toByteArray]

/-- Two texts with the same bytes are the same text. -/
theorem utf8_injective {cs ds : List Char} (h : utf8 cs = utf8 ds) : cs = ds := by
  have hbytes : (String.ofList cs).toByteArray = (String.ofList ds).toByteArray := by
    simpa [utf8, List.utf8Encode] using congrArg List.toByteArray h
  exact String.ofList_injective (String.toByteArray_inj.mp hbytes)

end CaskOrder.Text
