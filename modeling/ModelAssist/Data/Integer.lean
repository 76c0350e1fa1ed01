import ModelAssist.Data.Value
import ModelAssist.Text.CodeRange

/-!
# Integers out of values

The integer that a value stands for.  Numerals may use the decimal digits of any script, single
underscores between digits, a sign, and blanks around them.  Other numbers lose their fractions.
-/

namespace ModelAssist

/-- Why a value stands for no integer. -/
inductive IntegerFault where
  | notNumeral (text : String)
  /-- The numeral has more digits than the limit. -/
  | tooLong (digits : Nat)
  /-- The value is of a sort without numbers. -/
  | wrongSort (sort : String)
  /-- The floating-point number is not a number. -/
  | notANumber
  /-- The floating-point number is infinite. -/
  | infinite
deriving DecidableEq, Repr

namespace Numeral

/-- The largest count of digits of a numeral. -/
def digitLimit : Nat := 4300

/-- How much of a text is quoted at most. -/
def quoteLimit : Nat := 200

/-- Holds of the blanks that may surround a numeral: all but the information separators. -/
def isMargin (char : Char) : Bool :=
  Text.isBlank char && !(0x1C ≤ char.toNat && char.toNat ≤ 0x1F)

/-- The digits at the front of a text, with single underscores between them, and the rest; `none`
if an underscore has no digit on both its sides. -/
def readDigits (afterDigit : Bool) : List Char → Option (List Nat × List Char)
  | [] => some ([], [])
  | char :: rest =>
    if char = '_' then
      match afterDigit, rest with
      | true, next :: _ => if (Text.digitValue? next).isSome then readDigits false rest else none
      | _, _ => none
    else
      match Text.digitValue? char with
      | some digit => (readDigits true rest).map fun (digits, rest) => (digit :: digits, rest)
      | none => some ([], char :: rest)

/-- The number that a list of digits writes. -/
def ofDigits (digits : List Nat) : Nat :=
  digits.foldl (fun value digit => value * 10 + digit) 0

/-- The integer that a text writes. -/
def read (text : String) : Except IntegerFault Int :=
  let (negative, unsigned) : Bool × List Char :=
    match text.toList.dropWhile isMargin with
    | '-' :: rest => (true, rest)
    | '+' :: rest => (false, rest)
    | rest => (false, rest)
  match readDigits false unsigned with
  | none => .error (.notNumeral text)
  | some ([], _) => .error (.notNumeral text)
  | some (digits, rest) =>
    if digitLimit < digits.length then .error (.tooLong digits.length)
    else if rest.all isMargin then
      .ok (if negative then -(ofDigits digits : Int) else ofDigits digits)
    else .error (.notNumeral text)

end Numeral

/-- What is said about a value that stands for no integer. -/
def IntegerFault.message : IntegerFault → String
  | .notNumeral text =>
    "invalid literal for int() with base 10: " ++
      String.ofList ((Text.quote text.toList).take Numeral.quoteLimit)
  | .tooLong digits =>
    "Exceeds the limit (" ++ Number.intText Numeral.digitLimit ++
      " digits) for integer string conversion: value has " ++ Number.intText digits ++
      " digits; use sys.set_int_max_str_digits() to increase the limit"
  | .wrongSort sort =>
    "int() argument must be a string, a bytes-like object or a real number, not '" ++ sort ++ "'"
  | .notANumber => "cannot convert float NaN to integer"
  | .infinite => "cannot convert float infinity to integer"

/-- The integer that a value stands for. -/
def Value.integer : Value → Except IntegerFault Int
  | .null => .error (.wrongSort "NoneType")
  | .bool value => .ok (if value then 1 else 0)
  | .int value => .ok value
  | .float value =>
    if value.isNaN then .error .notANumber
    else if value.isInf then .error .infinite
    else .ok (Number.truncated value)
  | .text value => Numeral.read value
  | .moment _ => .error (.wrongSort "datetime.date")
  | .list _ => .error (.wrongSort "list")
  | .record _ => .error (.wrongSort "dict")

end ModelAssist
