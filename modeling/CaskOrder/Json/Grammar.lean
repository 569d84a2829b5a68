import CaskOrder.Json.Value

/-!
# The grammar of JSON

The relations below derive a value from the beginning of a text and leave the rest of
it.  They follow the grammar of RFC 8259, with the space, the tab, the line feed and the
carriage return as the only blanks.

A string literal is a list of pieces.  The grammar takes any unit between `0000` and
`ffff`; whether the units of a literal pair up into characters is decided when its text
is asked for.
-/

namespace CaskOrder.Json

/-- One piece of a string literal: a character, or a UTF-16 unit in hexadecimal. -/
inductive Piece where
  | char (c : Char)
  | unit (n : Nat)
deriving DecidableEq, Repr

abbrev Literal := List Piece

/-- The characters of a literal, if each unit that is half a character is followed or
preceded by the other half. -/
def Literal.chars? : Literal → Option (List Char)
  | [] => some []
  | .char c :: pieces => (Literal.chars? pieces).map (c :: ·)
  | .unit high :: .unit low :: pieces =>
    if isHighHalf high && isLowHalf low then
      (Literal.chars? pieces).map (joinHalves high low :: ·)
    else if isHighHalf high || isLowHalf high then none
    else (Literal.chars? (.unit low :: pieces)).map (Char.ofNat high :: ·)
  | .unit n :: pieces =>
    if isHighHalf n || isLowHalf n then none
    else (Literal.chars? pieces).map (Char.ofNat n :: ·)

def Literal.text? (literal : Literal) : Option String :=
  (Literal.chars? literal).map String.ofList

namespace Grammar

inductive Blanks : List Char → List Char → Prop where
  | none (cs : List Char) : Blanks cs cs
  | some {c : Char} {cs rest : List Char} :
      c ∈ [' ', '\t', '\n', '\r'] → Blanks cs rest → Blanks (c :: cs) rest

def HexDigit (c : Char) (n : Nat) : Prop :=
  "0123456789abcdef".toList[n]? = some c ∨ "0123456789ABCDEF".toList[n]? = some c

/-- What a backslash and a letter stand for. -/
inductive Escaped : Char → Char → Prop where
  | quote : Escaped '"' '"'
  | backslash : Escaped '\\' '\\'
  | slash : Escaped '/' '/'
  | backspace : Escaped 'b' '\x08'
  | formFeed : Escaped 'f' '\x0c'
  | lineFeed : Escaped 'n' '\n'
  | carriageReturn : Escaped 'r' '\r'
  | tab : Escaped 't' '\t'

/-- The body of a string literal and its closing quote. -/
inductive Body : List Char → Literal → List Char → Prop where
  | quote (rest : List Char) : Body ('"' :: rest) [] rest
  | plain {c : Char} {cs rest : List Char} {pieces : Literal} :
      c ≠ '"' → c ≠ '\\' → 0x20 ≤ c.toNat → Body cs pieces rest →
      Body (c :: cs) (.char c :: pieces) rest
  | letter {letter c : Char} {cs rest : List Char} {pieces : Literal} :
      Escaped letter c → Body cs pieces rest →
      Body ('\\' :: letter :: cs) (.char c :: pieces) rest
  | unit {d₃ d₂ d₁ d₀ : Char} {n₃ n₂ n₁ n₀ : Nat} {cs rest : List Char}
      {pieces : Literal} :
      HexDigit d₃ n₃ → HexDigit d₂ n₂ → HexDigit d₁ n₁ → HexDigit d₀ n₀ →
      Body cs pieces rest →
      Body ('\\' :: 'u' :: d₃ :: d₂ :: d₁ :: d₀ :: cs)
        (.unit (((n₃ * 16 + n₂) * 16 + n₁) * 16 + n₀) :: pieces) rest

/-- One or more digits. -/
inductive Digits : List Char → List Char → Prop where
  | one {d : Char} (rest : List Char) : d.isDigit → Digits (d :: rest) rest
  | more {d : Char} {cs rest : List Char} : d.isDigit → Digits cs rest → Digits (d :: cs) rest

inductive Minus : List Char → List Char → Prop where
  | none (rest : List Char) : Minus rest rest
  | some (rest : List Char) : Minus ('-' :: rest) rest

/-- A zero, or digits that do not begin with one. -/
inductive Whole : List Char → List Char → Prop where
  | zero (rest : List Char) : Whole ('0' :: rest) rest
  | digits {cs rest : List Char} : cs.head? ≠ some '0' → Digits cs rest → Whole cs rest

inductive Fraction : List Char → List Char → Prop where
  | none (rest : List Char) : Fraction rest rest
  | some {cs rest : List Char} : Digits cs rest → Fraction ('.' :: cs) rest

inductive Sign : List Char → List Char → Prop where
  | none (rest : List Char) : Sign rest rest
  | plus (rest : List Char) : Sign ('+' :: rest) rest
  | minus (rest : List Char) : Sign ('-' :: rest) rest

inductive Exponent : List Char → List Char → Prop where
  | none (rest : List Char) : Exponent rest rest
  | some {e : Char} {cs ds rest : List Char} :
      e = 'e' ∨ e = 'E' → Sign cs ds → Digits ds rest → Exponent (e :: cs) rest

def Number (cs rest : List Char) : Prop :=
  ∃ whole fraction exponent,
    Minus cs whole ∧ Whole whole fraction ∧ Fraction fraction exponent ∧ Exponent exponent rest

mutual

inductive Begins : List Char → Value Literal → List Char → Prop where
  | null (rest : List Char) : Begins ('n' :: 'u' :: 'l' :: 'l' :: rest) .null rest
  | true (rest : List Char) : Begins ('t' :: 'r' :: 'u' :: 'e' :: rest) (.bool true) rest
  | false (rest : List Char) :
      Begins ('f' :: 'a' :: 'l' :: 's' :: 'e' :: rest) (.bool false) rest
  | number {numeral rest : List Char} :
      Number (numeral ++ rest) rest → Begins (numeral ++ rest) (.number numeral) rest
  | string {cs rest : List Char} {literal : Literal} :
      Body cs literal rest → Begins ('"' :: cs) (.string literal) rest
  | emptyList {cs rest : List Char} :
      Blanks cs (']' :: rest) → Begins ('[' :: cs) (.list []) rest
  | list {cs rest : List Char} {items : List (Value Literal)} :
      Items cs items rest → Begins ('[' :: cs) (.list items) rest
  | emptyObject {cs rest : List Char} :
      Blanks cs ('}' :: rest) → Begins ('{' :: cs) (.object []) rest
  | object {cs rest : List Char} {members : List (Literal × Value Literal)} :
      Members cs members rest → Begins ('{' :: cs) (.object members) rest

/-- The items of a list and its closing bracket. -/
inductive Items : List Char → List (Value Literal) → List Char → Prop where
  | last {cs ds es rest : List Char} {item : Value Literal} :
      Blanks cs ds → Begins ds item es → Blanks es (']' :: rest) → Items cs [item] rest
  | more {cs ds es fs rest : List Char} {item : Value Literal}
      {items : List (Value Literal)} :
      Blanks cs ds → Begins ds item es → Blanks es (',' :: fs) → Items fs items rest →
      Items cs (item :: items) rest

/-- The members of an object and its closing brace. -/
inductive Members : List Char → List (Literal × Value Literal) → List Char → Prop where
  | last {cs ds es fs gs hs rest : List Char} {key : Literal} {value : Value Literal} :
      Blanks cs ('"' :: ds) → Body ds key es → Blanks es (':' :: fs) →
      Blanks fs gs → Begins gs value hs → Blanks hs ('}' :: rest) →
      Members cs [(key, value)] rest
  | more {cs ds es fs gs hs is rest : List Char} {key : Literal} {value : Value Literal}
      {members : List (Literal × Value Literal)} :
      Blanks cs ('"' :: ds) → Body ds key es → Blanks es (':' :: fs) →
      Blanks fs gs → Begins gs value hs → Blanks hs (',' :: is) → Members is members rest →
      Members cs ((key, value) :: members) rest

end

/-- The whole text is a value with blanks around it. -/
def Document (cs : List Char) (value : Value Literal) : Prop :=
  ∃ ds es, Blanks cs ds ∧ Begins ds value es ∧ Blanks es []

end Grammar
end CaskOrder.Json
