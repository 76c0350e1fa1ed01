/-!
# Shortest decimals

The decimal with the fewest digits that reads back as a given binary number.  A finite binary number
is `significand * 2 ^ exponent`; the reals that read as it form an interval around it.  On each grid
of decimals with one, two, ... digits only the two neighbours of the number can lie in the interval,
so these are tested, and the first grid with a hit decides.
-/

namespace ModelAssist.Number

/-- A finite, non-negative binary number. -/
structure Binary where
  /-- The significand, below two to the power of fifty-three. -/
  significand : Nat
  /-- The power of two that the significand counts. -/
  exponent : Int
  /-- Holds if the next smaller number is only half as far away as the next larger one. -/
  closerBelow : Bool

/-- A decimal: a number of units of a power of ten. -/
structure Decimal where
  /-- The digits, read as one number. -/
  digits : Nat
  /-- The power of ten that they count. -/
  exponent : Int
deriving DecidableEq, Repr

/-- The finite number of a pattern of sixty-four bits, without its sign. -/
def Binary.ofBits (bits : UInt64) : Binary :=
  let fraction : Nat := bits.toNat % Nat.pow 2 52
  let power : Nat := bits.toNat / Nat.pow 2 52 % Nat.pow 2 11
  if power = 0 then ⟨fraction, -1074, false⟩
  else ⟨Nat.pow 2 52 + fraction, (power : Int) - 1075, fraction == 0 && 1 < power⟩

/-- A non-negative fraction. -/
structure Ratio where
  /-- The part above the line. -/
  numerator : Nat
  /-- The part below the line, which is not zero. -/
  denominator : Nat

namespace Ratio

/-- A number of units of a power of two. -/
def ofPowerOfTwo (count : Nat) (exponent : Int) : Ratio :=
  if 0 ≤ exponent then ⟨count * Nat.pow 2 exponent.toNat, 1⟩
  else ⟨count, Nat.pow 2 (-exponent).toNat⟩

/-- A fraction measured in units of a power of ten. -/
def inUnits (value : Ratio) (exponent : Int) : Ratio :=
  if 0 ≤ exponent then ⟨value.numerator, value.denominator * Nat.pow 10 exponent.toNat⟩
  else ⟨value.numerator * Nat.pow 10 (-exponent).toNat, value.denominator⟩

/-- Holds if the first fraction is smaller. -/
def isLess (left right : Ratio) : Bool :=
  left.numerator * right.denominator < right.numerator * left.denominator

/-- The count of digits before the point; for a number below one, less the zeros after the point. -/
def magnitude (value : Ratio) : Int :=
  let whole := value.numerator / value.denominator
  if whole = 0 then
    let reaches (power : Nat) : Bool := value.denominator ≤ value.numerator * Nat.pow 10 power
    1 - ((List.range 400).find? reaches).getD 0
  else (Nat.toDigits 10 whole).length

end Ratio

/-- Holds if a decimal number of units lies among the reals that read as the given number. -/
def Binary.admits (number : Binary) (units : Nat) (exponent : Int) : Bool :=
  let scaled := fun count =>
    (Ratio.ofPowerOfTwo count (number.exponent - 2)).inUnits exponent
  let low := scaled (4 * number.significand - if number.closerBelow then 1 else 2)
  let high := scaled (4 * number.significand + 2)
  let candidate : Ratio := ⟨units, 1⟩
  if number.significand % 2 = 0 then !candidate.isLess low && !high.isLess candidate
  else low.isLess candidate && candidate.isLess high

/-- The neighbour of a number on the grid of decimals with the given count of digits that reads
back, the nearer one if both do, and the even one of two equally near ones. -/
def Binary.onGrid? (number : Binary) (magnitude : Int) (digits : Nat) : Option Decimal :=
  let exponent := magnitude - digits
  let value := (Ratio.ofPowerOfTwo number.significand number.exponent).inUnits exponent
  let below := value.numerator / value.denominator
  let above := below + 1
  let rest := value.numerator % value.denominator
  match number.admits below exponent, number.admits above exponent with
  | true, true =>
    if 2 * rest < value.denominator || (2 * rest == value.denominator && below % 2 == 0) then
      some ⟨below, exponent⟩
    else some ⟨above, exponent⟩
  | true, false => some ⟨below, exponent⟩
  | false, true => some ⟨above, exponent⟩
  | false, false => none

/-- A decimal without trailing zeros; the fuel bounds their count. -/
def Decimal.stripped (decimal : Decimal) : Nat → Decimal
  | 0 => decimal
  | fuel + 1 =>
    if decimal.digits ≠ 0 ∧ decimal.digits % 10 = 0 then
      Decimal.stripped ⟨decimal.digits / 10, decimal.exponent + 1⟩ fuel
    else decimal

/-- The shortest decimal that reads back as the given number. -/
def shortest (number : Binary) : Decimal :=
  if number.significand = 0 then ⟨0, 0⟩
  else
    let magnitude := (Ratio.ofPowerOfTwo number.significand number.exponent).magnitude
    (((List.range 17).findSome? fun fewer => number.onGrid? magnitude (fewer + 1)).getD
      ⟨0, 0⟩).stripped 20

end ModelAssist.Number
