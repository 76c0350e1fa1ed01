import ModelAssist.Number.Shortest

/-!
# Written numbers

The texts of integers and of floating-point numbers.  A floating-point number is written with the
digits of its shortest decimal; `FloatStyle` says how these are laid out.
-/

namespace ModelAssist.Number

/-- The layout of a floating-point number. -/
structure FloatStyle where
  /-- The largest power of ten of a leading digit that is written without an exponent. -/
  largest : Int
  /-- The smallest power of ten of a leading digit that is written without an exponent. -/
  smallest : Int
  /-- The least count of digits of an exponent. -/
  exponentDigits : Nat
  /-- The text of a value that is not a number. -/
  notANumber : String
  /-- The text of a number above all others. -/
  infinity : String

/-- Floating-point numbers in messages: exponents from `1e+16` and below `0.0001`. -/
def FloatStyle.plain : FloatStyle := ⟨15, -4, 2, "nan", "inf"⟩

/-- Floating-point numbers in documents: as in messages, with capital special values. -/
def FloatStyle.document : FloatStyle := ⟨15, -4, 2, "NaN", "Infinity"⟩

/-- A numeral with zeros in front up to the given width. -/
def padded (width : Nat) (value : Nat) : List Char :=
  let digits := Nat.toDigits 10 value
  List.replicate (width - digits.length) '0' ++ digits

/-- The text of a decimal in the given style. -/
def Decimal.text (style : FloatStyle) (decimal : Decimal) : List Char :=
  let digits := Nat.toDigits 10 decimal.digits
  let leading : Int := decimal.exponent + digits.length - 1
  if decimal.digits = 0 then ['0', '.', '0']
  else if style.smallest ≤ leading ∧ leading ≤ style.largest then
    if leading < 0 then
      ['0', '.'] ++ List.replicate ((-leading).toNat - 1) '0' ++ digits
    else if 0 ≤ decimal.exponent then
      digits ++ List.replicate decimal.exponent.toNat '0' ++ ['.', '0']
    else
      digits.take (leading.toNat + 1) ++ ['.'] ++ digits.drop (leading.toNat + 1)
  else
    let mantissa :=
      match digits with
      | first :: second :: others => first :: '.' :: second :: others
      | short => short
    let sign := if leading < 0 then '-' else '+'
    mantissa ++ ['e', sign] ++ padded style.exponentDigits leading.natAbs

/-- The text of a floating-point number in the given style. -/
def floatText (style : FloatStyle) (value : Float) : String :=
  if value.isNaN then style.notANumber
  else
    let sign := if value.toBits.toNat / Nat.pow 2 63 = 1 then "-" else ""
    if value.isInf then sign ++ style.infinity
    else sign ++ String.ofList ((shortest (Binary.ofBits value.toBits)).text style)

/-- The text of an integer. -/
def intText (value : Int) : String :=
  if value < 0 then "-" ++ String.ofList (Nat.toDigits 10 value.natAbs)
  else String.ofList (Nat.toDigits 10 value.natAbs)

/-- The integer next to a finite number in the direction of zero. -/
def truncated (value : Float) : Int :=
  let number := Binary.ofBits value.toBits
  let size := number.significand * Nat.pow 2 number.exponent.toNat /
    Nat.pow 2 (-number.exponent).toNat
  if value.toBits.toNat / Nat.pow 2 63 = 1 then -(size : Int) else size

/-- Holds of the finite numbers that have no fractional part. -/
def isWhole (value : Float) : Bool :=
  let number := Binary.ofBits value.toBits
  !value.isNaN && !value.isInf && number.significand % Nat.pow 2 (-number.exponent).toNat == 0

/-- The number nearest to a decimal; powers of ten beyond all numbers are not computed. -/
def nearest (negative : Bool) (decimal : Decimal) : Float :=
  let size : Float :=
    if decimal.digits = 0 then 0
    else
      let leading : Int := decimal.exponent + (Nat.toDigits 10 decimal.digits).length
      if 310 < leading then Float.ofBits 0x7FF0000000000000
      else if leading < -330 then 0
      else Float.ofScientific decimal.digits (decimal.exponent < 0) decimal.exponent.natAbs
  if negative then -size else size

/-- The number nearest to an integer. -/
def ofInt (value : Int) : Float :=
  nearest (value < 0) ⟨value.natAbs, 0⟩

end ModelAssist.Number
