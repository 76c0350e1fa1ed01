import ModelAssist.Text.Printable

/-!
# Quoted texts

How a text is shown inside a message or inside the spelling of a list: between quotation marks, with
everything escaped that does not print.
-/

namespace ModelAssist.Text

/-- A digit of a hexadecimal numeral, in lower case. -/
def hexDigit (value : Nat) : Char :=
  if value < 10 then Char.ofNat (48 + value) else Char.ofNat (87 + value)

/-- The hexadecimal numeral of a number, with the given count of digits. -/
def hexadecimal (digits value : Nat) : List Char :=
  match digits with
  | 0 => []
  | more + 1 => hexadecimal more (value / 16) ++ [hexDigit (value % 16)]

namespace Quoted

/-- The mark that surrounds a text: the double one only where it saves escaping single ones. -/
def mark (text : List Char) : Char :=
  if text.contains '\'' && !text.contains '"' then '"' else '\''

/-- The written form of a character between two given marks. -/
def escape (mark char : Char) : List Char :=
  if char = mark || char = '\\' then ['\\', char]
  else if char = '\n' then ['\\', 'n']
  else if char = '\r' then ['\\', 'r']
  else if char = '\t' then ['\\', 't']
  else if isPrintable char then [char]
  else if char.toNat < 0x100 then ['\\', 'x'] ++ hexadecimal 2 char.toNat
  else if char.toNat < 0x10000 then ['\\', 'u'] ++ hexadecimal 4 char.toNat
  else ['\\', 'U'] ++ hexadecimal 8 char.toNat

end Quoted

/-- The quoted form of a text. -/
def quote (text : List Char) : List Char :=
  let mark := Quoted.mark text
  [mark] ++ text.flatMap (Quoted.escape mark) ++ [mark]

/-- The quoted form of a string. -/
def quoted (text : String) : String :=
  String.ofList (quote text.toList)

end ModelAssist.Text
