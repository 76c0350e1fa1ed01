import ModelAssist.Data.Value
import ModelAssist.Text.CodeRange

/-!
# Coercion of settings

The texts, integers and numbers that settings stand for.  Settings come from documents with types
and from plain texts, so that integers and numbers may also be written as texts.
-/

namespace ModelAssist.Coercion

/-- The longest text that is read as an integer. -/
def lengthLimit : Nat := 4300

/-- The number that a list of ASCII digits writes. -/
def ofDigits (digits : List Char) : Nat :=
  digits.foldl (fun value digit => value * 10 + (digit.toNat - 48)) 0

/-- Holds of the texts of at least one digit that have no needless zero in front. -/
def isNumeral (text : List Char) : Bool :=
  !text.isEmpty && text.all Char.isDigit && (text.length = 1 || text.head? ≠ some '0')

/-- The integer that a text writes with at most a minus sign before its digits. -/
def plainInteger? (text : List Char) : Option Int :=
  match text with
  | '-' :: digits => if isNumeral digits then some (-(ofDigits digits : Int)) else none
  | digits => if isNumeral digits then some (ofDigits digits : Int) else none

/-- A numeral without the zeros at its front, between which single underscores may stand; the last
zero stays where no other digit follows.  `zero` is the zero before the given rest. -/
def withoutZeros (zero : Char) : List Char → Option (List Char)
  | [] => some [zero]
  | '0' :: rest => withoutZeros '0' rest
  | '_' :: '0' :: rest => withoutZeros '0' rest
  | '_' :: digit :: rest => if digit.isDigit then some (digit :: rest) else none
  | '.' :: rest => some (zero :: '.' :: rest)
  | digit :: rest => if digit.isDigit then some (digit :: rest) else none

/-- A numeral without a fraction of zeros. -/
def withoutFraction (text : List Char) : List Char :=
  match text.span (· ≠ '.') with
  | (whole, '.' :: fraction) => if fraction.all (· = '0') then whole else text
  | _ => text

/-- A text without its underscores, if these stand alone between other characters. -/
def withoutUnderscores? : List Char → Option (List Char)
  | [] => some []
  | '_' :: _ => none
  | [char] => some [char]
  | char :: '_' :: rest =>
    match rest with
    | [] => none
    | _ => (withoutUnderscores? rest).map (char :: ·)
  | char :: rest => (withoutUnderscores? rest).map (char :: ·)

/-- The integer that a text writes. -/
def integerOfText? (text : String) : Option Int :=
  let text := Text.trim text.toList
  match plainInteger? text with
  | some value => some value
  | none => do
    let unsigned := match text with
      | '+' :: rest => rest
      | rest => rest
    let shortened ← match unsigned with
      | '0' :: rest => withoutZeros '0' rest
      | rest => some rest
    plainInteger? (← withoutUnderscores? (withoutFraction shortened))

/-- The exponent that a text writes after its mark. -/
def exponent? (text : List Char) : Option Int :=
  let (negative, digits) : Bool × List Char := match text with
    | '-' :: rest => (true, rest)
    | '+' :: rest => (false, rest)
    | rest => (false, rest)
  if digits.isEmpty || !digits.all Char.isDigit then none
  else some (if negative then -(ofDigits digits : Int) else ofDigits digits)

/-- The decimal that a text without a sign writes. -/
def decimal? (text : List Char) : Option Number.Decimal := do
  let (mantissa, rest) := text.span fun char => char ≠ 'e' && char ≠ 'E'
  let exponent ← match rest with
    | [] => some 0
    | _ :: rest => exponent? rest
  let (whole, rest) := mantissa.span (· ≠ '.')
  let fraction := rest.drop 1
  if (whole ++ fraction).isEmpty || !(whole ++ fraction).all Char.isDigit then none
  else some ⟨ofDigits (whole ++ fraction), exponent - fraction.length⟩

/-- A number above all others. -/
def infinity : Float := Number.nearest false ⟨1, 400⟩

/-- The number that a text without blanks around it writes. -/
def plainNumber? (text : List Char) : Option Float :=
  let (negative, size) : Bool × List Char := match text with
    | '-' :: rest => (true, rest)
    | '+' :: rest => (false, rest)
    | rest => (false, rest)
  let word := String.ofList (size.map Char.toLower)
  if word = "inf" || word = "infinity" then some (if negative then -infinity else infinity)
  else if word = "nan" then some (infinity - infinity)
  else (decimal? size).map (Number.nearest negative)

/-- The number that a text writes. -/
def numberOfText? (text : String) : Option Float :=
  match plainNumber? (Text.trim text.toList) with
  | some value => some value
  | none => do plainNumber? (← withoutUnderscores? text.toList)

/-- The text that a setting stands for, or what is wrong with it. -/
def text : Value → Except String String
  | .text value => .ok value
  | _ => .error "Input should be a valid string"

/-- The text that a setting stands for, if it is not null, or what is wrong with it. -/
def optionalText : Value → Except String (Option String)
  | .null => .ok none
  | value => (text value).map some

/-- The integer that a setting stands for, or what is wrong with it. -/
def integer : Value → Except String Int
  | .bool value => .ok (if value then 1 else 0)
  | .int value => .ok value
  | .float value =>
    if value.isNaN || value.isInf then .error "Input should be a finite number"
    else if !Number.isWhole value then
      .error "Input should be a valid integer, got a number with a fractional part"
    else
      let whole := Number.truncated value
      if -(Int.pow 2 63) ≤ whole ∧ whole < Int.pow 2 63 then .ok whole
      else .error "Unable to parse input string as an integer, exceeded maximum size"
  | .text value =>
    if lengthLimit < value.length then
      .error "Unable to parse input string as an integer, exceeded maximum size"
    else
      match integerOfText? value with
      | some value => .ok value
      | none => .error "Input should be a valid integer, unable to parse string as an integer"
  | _ => .error "Input should be a valid integer"

/-- The number that a setting stands for, or what is wrong with it. -/
def number : Value → Except String Float
  | .bool value => .ok (if value then 1 else 0)
  | .int value =>
    let nearest := Number.ofInt value
    if nearest.isInf then .error "Input should be a valid number" else .ok nearest
  | .float value => .ok value
  | .text value =>
    match numberOfText? value with
    | some value => .ok value
    | none => .error "Input should be a valid number, unable to parse string as a number"
  | _ => .error "Input should be a valid number"

end ModelAssist.Coercion
