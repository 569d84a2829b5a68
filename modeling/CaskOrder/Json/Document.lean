import CaskOrder.Json.ParseError
import CaskOrder.Json.Reader

/-!
# Whole texts

A text is read as a whole if nothing but blanks is left of it.
-/

namespace CaskOrder.Json.Reader

def readWhole (reader : Reader α) (cs : List Char) : Except Fault α :=
  match reader.read cs with
  | .error fault => .error fault
  | .ok (a, rest) =>
    match skipBlanks rest with
    | [] => .ok a
    | rest => .error (.next .trailingCharacters rest)

/-- Reads a text, or says what is wrong with it and where. -/
def parse (reader : Reader α) (text : String) : Except ParseError α :=
  match reader.readWhole text.toList with
  | .ok a => .ok a
  | .error fault => .error (.ofFault text.toList fault)

end CaskOrder.Json.Reader
