import CaskOrder.Decimal.Layout
import CaskOrder.Text.Quoted
import CaskOrder.Text.Utf8

/-!
# What can be wrong with a JSON text

A fault names its cause and its place.  The place is kept as the number of bytes that
follow it, which does not change while a reader works its way towards it, so that a
fault found in the rest of a text is the same fault of the whole text.

A cause that lies in one character is placed behind the first byte of that character.
-/

namespace CaskOrder.Json

/-- What was being read when the text ended. -/
inductive Unfinished where
  | value
  | string
  | list
  | object
deriving DecidableEq, Repr

/-- A value that stands where another kind of value is wanted. -/
inductive Found where
  | null
  | bool (value : Bool)
  | integer (value : Int)
  | float (value : Float)
  | string (text : String)
  | list
  | object
deriving Repr

/-- The kind of value that is wanted. -/
inductive Expected where
  | null
  | string
  | list
  | record (title : String)
deriving DecidableEq, Repr

inductive Cause where
  | unexpectedEnd (inside : Unfinished)
  | expectedValue
  | expectedIdent
  | expectedColon
  | expectedListComma
  | expectedObjectComma
  | trailingComma
  | trailingCharacters
  | keyNotString
  | controlCharacter
  | invalidEscape
  | loneSurrogate
  | unfinishedPair
  | invalidNumber
  | numberOutOfRange
  | wrongType (found : Found) (expected : Expected)
  | unknownName (text : String) (known : List String)
  | missingField (name : String)
  | duplicateField (name : String)
  | emptyRecord (title : String)
deriving Repr

/-- A text can end too early, hold the wrong data, or not be JSON at all. -/
inductive Category where
  | incomplete
  | wrongData
  | malformed
deriving DecidableEq, Repr

/-- A cause and the number of bytes behind its place. -/
structure Fault where
  cause : Cause
  left : Nat
deriving Repr

namespace Fault

/-- A fault at the beginning of the given rest. -/
def here (cause : Cause) (rest : List Char) : Fault :=
  ⟨cause, Text.byteCount rest⟩

/-- A fault behind the first byte of the given rest, or at its end if it is empty. -/
def next (cause : Cause) (rest : List Char) : Fault :=
  ⟨cause, Text.byteCount rest - 1⟩

end Fault

def Cause.category : Cause → Category
  | .unexpectedEnd _ => .incomplete
  | .wrongType _ _ | .unknownName _ _ | .missingField _ | .duplicateField _
  | .emptyRecord _ => .wrongData
  | _ => .malformed

def Unfinished.text : Unfinished → String
  | .value => "a value"
  | .string => "a string"
  | .list => "a list"
  | .object => "an object"

/-- Floating-point numbers in messages are written out from `0.00001` to below `1e16`. -/
def Found.floatLayout : Decimal.Layout :=
  ⟨-4, 16⟩

def Found.text : Found → String
  | .null => "null"
  | .bool true => "boolean `true`"
  | .bool false => "boolean `false`"
  | .integer value => "integer `" ++ toString value ++ "`"
  | .float value => "floating point `" ++ floatLayout.writeFloat value ++ "`"
  | .string text => "string " ++ Text.quoted text
  | .list => "sequence"
  | .object => "map"

def Expected.text : Expected → String
  | .null => "unit"
  | .string => "a string"
  | .list => "a sequence"
  | .record title => "struct " ++ title

/-- The names to choose from, as they are offered in a message. -/
def choiceText (names : List String) : String :=
  let ticked := names.map fun name => "`" ++ name ++ "`"
  match ticked with
  | [first, second] => first ++ " or " ++ second
  | _ => "one of " ++ ", ".intercalate ticked

def Cause.text : Cause → String
  | .unexpectedEnd inside => "EOF while parsing " ++ inside.text
  | .expectedValue => "expected value"
  | .expectedIdent => "expected ident"
  | .expectedColon => "expected `:`"
  | .expectedListComma => "expected `,` or `]`"
  | .expectedObjectComma => "expected `,` or `\x7d`"
  | .trailingComma => "trailing comma"
  | .trailingCharacters => "trailing characters"
  | .keyNotString => "key must be a string"
  | .controlCharacter => "control character (\\u0000-\\u001F) found while parsing a string"
  | .invalidEscape => "invalid escape"
  | .loneSurrogate => "lone leading surrogate in hex escape"
  | .unfinishedPair => "unexpected end of hex escape"
  | .invalidNumber => "invalid number"
  | .numberOutOfRange => "number out of range"
  | .wrongType found expected =>
    "invalid type: " ++ found.text ++ ", expected " ++ expected.text
  | .unknownName text known =>
    "unknown variant `" ++ text ++ "`, expected " ++ choiceText known
  | .missingField name => "missing field `" ++ name ++ "`"
  | .duplicateField name => "duplicate field `" ++ name ++ "`"
  | .emptyRecord title => "invalid length 0, expected struct " ++ title ++ " with 1 element"

end CaskOrder.Json
