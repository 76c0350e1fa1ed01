import ModelAssist.Data.Value

/-!
# Reading JSON

A reader for JSON texts that also takes the special numbers `NaN`, `Infinity` and `-Infinity`.  A
key that is written twice keeps its first place and gets its last value.
-/

namespace ModelAssist.Json

/-- Why a text is refused. -/
inductive ReadError where
  /-- The text does not follow the grammar. -/
  | malformed
  /-- An integer has more digits than the limit. -/
  | numeralTooLong (digits : Nat)
deriving DecidableEq, Repr

/-- The largest count of digits of an integer. -/
def digitLimit : Nat := 4300

/-- A text without leading white space. -/
def skipSpace (text : List Char) : List Char :=
  text.dropWhile fun char => char = ' ' || char = '\t' || char = '\n' || char = '\r'

/-- The value of a hexadecimal digit. -/
def hexValue? (char : Char) : Option Nat :=
  if '0' ≤ char ∧ char ≤ '9' then some (char.toNat - 48)
  else if 'a' ≤ char ∧ char ≤ 'f' then some (char.toNat - 87)
  else if 'A' ≤ char ∧ char ≤ 'F' then some (char.toNat - 55)
  else none

/-- The unit of sixteen bits written by four hexadecimal digits. -/
def readUnit : List Char → Option (Nat × List Char)
  | a :: b :: c :: d :: rest => do
    let a ← hexValue? a
    let b ← hexValue? b
    let c ← hexValue? c
    let d ← hexValue? d
    some (((a * 16 + b) * 16 + c) * 16 + d, rest)
  | _ => none

/-- The rest of a string after its opening mark, read character by character: the characters so far
come last one first, and the fuel bounds their count. -/
def readStringFrom (read : List Char) : Nat → List Char → Except ReadError (String × List Char)
  | 0, _ => .error .malformed
  | _ + 1, [] => .error .malformed
  | fuel + 1, char :: rest =>
    if char = '"' then .ok (String.ofList read.reverse, rest)
    else if char.toNat < 0x20 then .error .malformed
    else if char = '\\' then
      match rest with
      | '"' :: rest => readStringFrom ('"' :: read) fuel rest
      | '\\' :: rest => readStringFrom ('\\' :: read) fuel rest
      | '/' :: rest => readStringFrom ('/' :: read) fuel rest
      | 'b' :: rest => readStringFrom ('\x08' :: read) fuel rest
      | 'f' :: rest => readStringFrom ('\x0c' :: read) fuel rest
      | 'n' :: rest => readStringFrom ('\n' :: read) fuel rest
      | 'r' :: rest => readStringFrom ('\r' :: read) fuel rest
      | 't' :: rest => readStringFrom ('\t' :: read) fuel rest
      | 'u' :: rest =>
        match readUnit rest with
        | none => .error .malformed
        | some (unit, rest) =>
          if 0xD800 ≤ unit ∧ unit < 0xDC00 then
            match rest with
            | '\\' :: 'u' :: after =>
              match readUnit after with
              | none => .error .malformed
              | some (low, after) =>
                if 0xDC00 ≤ low ∧ low < 0xE000 then
                  let char := Char.ofNat (0x10000 + (unit - 0xD800) * 0x400 + (low - 0xDC00))
                  readStringFrom (char :: read) fuel after
                else readStringFrom ('\uFFFD' :: read) fuel rest
            | rest => readStringFrom ('\uFFFD' :: read) fuel rest
          else if 0xDC00 ≤ unit ∧ unit < 0xE000 then readStringFrom ('\uFFFD' :: read) fuel rest
          else readStringFrom (Char.ofNat unit :: read) fuel rest
      | _ => .error .malformed
    else readStringFrom (char :: read) fuel rest

/-- The rest of a string after its opening mark. -/
def readString (text : List Char) : Except ReadError (String × List Char) :=
  readStringFrom [] (text.length + 1) text

/-- The number that a list of decimal digits writes. -/
def digitsValue (digits : List Char) : Nat :=
  digits.foldl (fun value digit => value * 10 + (digit.toNat - 48)) 0

/-- The digits at the front of a text, and the rest of it. -/
def spanDigits (text : List Char) : List Char × List Char :=
  text.span Char.isDigit

/-- The fraction at the front of a text, empty if there is none. -/
def readFraction (text : List Char) : List Char × List Char :=
  match text with
  | '.' :: rest =>
    match spanDigits rest with
    | ([], _) => ([], text)
    | (digits, after) => (digits, after)
  | _ => ([], text)

/-- The exponent at the front of a text, if there is one. -/
def readExponent (text : List Char) : Option Int × List Char :=
  match text with
  | mark :: rest =>
    if mark = 'e' ∨ mark = 'E' then
      let (negative, rest) : Bool × List Char :=
        match rest with
        | '-' :: rest => (true, rest)
        | '+' :: rest => (false, rest)
        | rest => (false, rest)
      match spanDigits rest with
      | ([], _) => (none, text)
      | (digits, after) =>
        let size : Int := digitsValue digits
        (some (if negative then -size else size), after)
    else (none, text)
  | [] => (none, text)

/-- The number at the front of a text whose sign was read before. -/
def readNumber (negative : Bool) (text : List Char) : Except ReadError (Value × List Char) :=
  let (whole, rest) : List Char × List Char :=
    match text with
    | '0' :: rest => (['0'], rest)
    | text => spanDigits text
  if whole.isEmpty then .error .malformed
  else
    let (fraction, rest) := readFraction rest
    let (exponent, rest) := readExponent rest
    if fraction.isEmpty && exponent.isNone then
      if digitLimit < whole.length then .error (.numeralTooLong whole.length)
      else
        let size : Int := digitsValue whole
        .ok (.int (if negative then -size else size), rest)
    else
      .ok (.float (Number.nearest negative
        ⟨digitsValue (whole ++ fraction), exponent.getD 0 - fraction.length⟩), rest)

/-- The rest of a text that starts with the given characters. -/
def afterWord? (word : String) (text : List Char) : Option (List Char) :=
  if word.toList.isPrefixOf text then some (text.drop word.length) else none

/-- A floating-point number above all others. -/
def infinity : Float := Number.nearest false ⟨1, 400⟩

/-- The scalar at the front of a text that starts with neither a mark nor a bracket. -/
def readScalar (text : List Char) : Except ReadError (Value × List Char) :=
  let words : List (String × Value) :=
    [("null", .null), ("true", .bool true), ("false", .bool false),
      ("NaN", .float (infinity - infinity)), ("Infinity", .float infinity),
      ("-Infinity", .float (-infinity))]
  match words.findSome? fun (word, value) => (afterWord? word text).map (value, ·) with
  | some result => .ok result
  | none =>
    match text with
    | '-' :: rest => readNumber true rest
    | rest => readNumber false rest

mutual

/-- The value at the front of a text; the fuel bounds the count of values and marks. -/
def readValue : Nat → List Char → Except ReadError (Value × List Char)
  | 0, _ => .error .malformed
  | fuel + 1, text =>
    match skipSpace text with
    | '"' :: rest => (readString rest).map fun (read, rest) => (.text read, rest)
    | '[' :: rest =>
      match skipSpace rest with
      | ']' :: rest => .ok (.list [], rest)
      | rest => (readElements fuel rest).map fun (elements, rest) => (.list elements, rest)
    | '\x7b' :: rest =>
      match skipSpace rest with
      | '\x7d' :: rest => .ok (.record [], rest)
      | rest => (readEntries fuel rest).map fun (entries, rest) =>
          (.record (Entries.ofPairs entries), rest)
    | rest => readScalar rest

/-- The elements of a list up to its closing bracket. -/
def readElements : Nat → List Char → Except ReadError (List Value × List Char)
  | 0, _ => .error .malformed
  | fuel + 1, text => do
    let (value, rest) ← readValue fuel text
    match skipSpace rest with
    | ',' :: rest =>
      let (others, rest) ← readElements fuel rest
      .ok (value :: others, rest)
    | ']' :: rest => .ok ([value], rest)
    | _ => .error .malformed

/-- The entries of a record up to its closing bracket. -/
def readEntries : Nat → List Char → Except ReadError (List (Key × Value) × List Char)
  | 0, _ => .error .malformed
  | fuel + 1, text => do
    match skipSpace text with
    | '"' :: rest =>
      let (name, rest) ← readString rest
      match skipSpace rest with
      | ':' :: rest =>
        let (value, rest) ← readValue fuel rest
        match skipSpace rest with
        | ',' :: rest =>
          let (others, rest) ← readEntries fuel rest
          .ok ((.text name, value) :: others, rest)
        | '\x7d' :: rest => .ok ([(.text name, value)], rest)
        | _ => .error .malformed
      | _ => .error .malformed
    | _ => .error .malformed

end

/-- The value that a whole text writes. -/
def read (text : List Char) : Except ReadError Value := do
  let (value, rest) ← readValue (text.length + 1) text
  if (skipSpace rest).isEmpty then .ok value else .error .malformed

end ModelAssist.Json
