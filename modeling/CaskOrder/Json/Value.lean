import CaskOrder.Json.StringLiteral

/-!
# JSON values and how they are written

A value is written on one line and without blanks.  In a string the quote and the
backslash are escaped, five control characters have a letter, and the other characters
below U+0020 are written with four lower-case hexadecimal digits.  All other characters
are written as they are.
-/

namespace CaskOrder.Json

/-- A JSON value.  Numbers are kept as they are written; the strings are texts in a value
that is to be written, and literals in one that was found in a text. -/
inductive Value (σ : Type) where
  | null
  | bool (value : Bool)
  | number (numeral : List Char)
  | string (text : σ)
  | list (items : List (Value σ))
  | object (members : List (σ × Value σ))
deriving Repr

def writeChar (c : Char) : List Char :=
  if c = '"' then ['\\', '"']
  else if c = '\\' then ['\\', '\\']
  else if c = '\x08' then ['\\', 'b']
  else if c = '\x0c' then ['\\', 'f']
  else if c = '\n' then ['\\', 'n']
  else if c = '\r' then ['\\', 'r']
  else if c = '\t' then ['\\', 't']
  else if isControl c then
    ['\\', 'u', '0', '0', Nat.digitChar (c.toNat / 16), Nat.digitChar (c.toNat % 16)]
  else [c]

def writeString (text : String) : List Char :=
  '"' :: text.toList.flatMap writeChar ++ ['"']

namespace Value

def strings (texts : List String) : Value String :=
  .list (texts.map .string)

mutual

def write : Value String → List Char
  | null => ['n', 'u', 'l', 'l']
  | bool true => ['t', 'r', 'u', 'e']
  | bool false => ['f', 'a', 'l', 's', 'e']
  | number numeral => numeral
  | string text => writeString text
  | list [] => ['[', ']']
  | list (item :: items) => '[' :: write item ++ writeItems items
  | object [] => ['{', '}']
  | object ((key, value) :: members) =>
    '{' :: writeString key ++ ':' :: write value ++ writeMembers members

/-- The items behind the first one, each with the comma before it, and the bracket. -/
def writeItems : List (Value String) → List Char
  | [] => [']']
  | item :: items => ',' :: write item ++ writeItems items

/-- The members behind the first one, each with the comma before it, and the brace. -/
def writeMembers : List (String × Value String) → List Char
  | [] => ['}']
  | (key, value) :: members =>
    ',' :: writeString key ++ ':' :: write value ++ writeMembers members

end

def text (value : Value String) : String :=
  String.ofList value.write

end Value
end CaskOrder.Json
