import CaskOrder.Json.Fault

/-!
# Reported places

A place in a text is reported by line and column.  Lines are counted from one; the
column is the number of bytes between the last line feed before the place and the place
itself.
-/

namespace CaskOrder.Json

structure Position where
  line : Nat
  column : Nat
deriving DecidableEq, Repr

/-- The position behind the given bytes. -/
def Position.after (bytes : List UInt8) : Position where
  line := bytes.count 10 + 1
  column := (bytes.reverse.takeWhile (· ≠ 10)).length

structure ParseError where
  cause : Cause
  position : Position
deriving Repr

namespace ParseError

def ofFault (text : List Char) (fault : Fault) : ParseError where
  cause := fault.cause
  position := .after ((Text.utf8 text).take (Text.byteCount text - fault.left))

def message (error : ParseError) : String :=
  "invalid JSON: " ++ error.cause.text ++ " at line " ++ toString error.position.line
    ++ " column " ++ toString error.position.column

end ParseError
end CaskOrder.Json
