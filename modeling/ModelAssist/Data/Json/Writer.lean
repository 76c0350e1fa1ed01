import ModelAssist.Data.Value

/-!
# Writing JSON

The JSON text of a value, on one line and with every character outside ASCII escaped.
-/

namespace ModelAssist.Json

/-- The escape of a unit of sixteen bits. -/
def escapeUnit (unit : Nat) : List Char :=
  ['\\', 'u'] ++ Text.hexadecimal 4 unit

/-- The written form of a character inside a JSON string. -/
def escapeChar (char : Char) : List Char :=
  if char = '"' then ['\\', '"']
  else if char = '\\' then ['\\', '\\']
  else if char = '\n' then ['\\', 'n']
  else if char = '\r' then ['\\', 'r']
  else if char = '\t' then ['\\', 't']
  else if char = '\x08' then ['\\', 'b']
  else if char = '\x0c' then ['\\', 'f']
  else if 0x20 ≤ char.toNat && char.toNat < 0x7F then [char]
  else if char.toNat < 0x10000 then escapeUnit char.toNat
  else
    let rest := char.toNat - 0x10000
    escapeUnit (0xD800 + rest / 0x400) ++ escapeUnit (0xDC00 + rest % 0x400)

/-- The JSON string of a text. -/
def writeString (text : String) : String :=
  "\"" ++ String.ofList (text.toList.flatMap escapeChar) ++ "\""

mutual

/-- The JSON text of a value. -/
def write : Value → String
  | .null => "null"
  | .bool true => "true"
  | .bool false => "false"
  | .int value => Number.intText value
  | .float value => Number.floatText .document value
  | .text value => writeString value
  | .moment spelling => writeString spelling
  | .list elements => "[" ++ String.intercalate ", " (writeList elements) ++ "]"
  | .record entries => "\x7b" ++ String.intercalate ", " (writeEntries entries) ++ "\x7d"

/-- The JSON texts of the elements of a list. -/
def writeList : List Value → List String
  | [] => []
  | value :: rest => write value :: writeList rest

/-- The JSON texts of the entries of a record. -/
def writeEntries : List (Key × Value) → List String
  | [] => []
  | (key, value) :: rest => (writeString key.display ++ ": " ++ write value) :: writeEntries rest

end

end ModelAssist.Json
