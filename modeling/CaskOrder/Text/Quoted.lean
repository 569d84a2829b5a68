import CaskOrder.Text.Combining
import CaskOrder.Text.Ignorable
import CaskOrder.Text.Unprintable

/-!
# Quoted texts

A text is quoted for display between double quotes.  The quote and the backslash are
written behind a backslash, four control characters have a letter of their own, and
every other character that could not be seen, could be left out, or would attach itself
to the one before it, is written by its code point in lower-case hexadecimal.
-/

namespace CaskOrder.Text

/-- The digits of a number in lower-case hexadecimal, without leading zeros. -/
def hex (n : Nat) : List Char :=
  Nat.toDigits 16 n

def quotedChar (c : Char) : List Char :=
  if c = '"' then ['\\', '"']
  else if c = '\\' then ['\\', '\\']
  else if c = '\x00' then ['\\', '0']
  else if c = '\t' then ['\\', 't']
  else if c = '\n' then ['\\', 'n']
  else if c = '\r' then ['\\', 'r']
  else if isUnprintable c || isIgnorable c || isCombining c then
    ['\\', 'u', '{'] ++ hex c.toNat ++ ['}']
  else [c]

/-- The text between double quotes, with every character visible. -/
def quoted (text : String) : String :=
  String.ofList (['"'] ++ text.toList.flatMap quotedChar ++ ['"'])

end CaskOrder.Text
