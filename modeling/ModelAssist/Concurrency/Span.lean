import ModelAssist.Concurrency.Process
import ModelAssist.Number.Shortest

/-!
# Spans of time

Seconds, as settings give them, as whole nanoseconds, and moments as whole milliseconds.
-/

namespace ModelAssist

/-- A fraction rounded to the nearest whole number, a half to the even one. -/
def roundedQuotient (numerator denominator : Nat) : Nat :=
  let whole := numerator / denominator
  let rest := 2 * (numerator % denominator)
  if rest < denominator || (rest = denominator && whole % 2 = 0) then whole else whole + 1

namespace Span

/-- The nanoseconds of a count of seconds; negative counts and values that are no numbers have
none. -/
def ofSeconds (seconds : Float) : Nat :=
  if 0 < seconds then
    let number := Number.Binary.ofBits seconds.toBits
    roundedQuotient (number.significand * Nat.pow 10 9 * Nat.pow 2 number.exponent.toNat)
      (Nat.pow 2 (-number.exponent).toNat)
  else 0

/-- The milliseconds of a moment, rounded. -/
def toMilliseconds (nanoseconds : Nat) : Nat :=
  roundedQuotient nanoseconds (Nat.pow 10 6)

end Span

/-- Sleeps for a count of seconds; no time at all is still a turn. -/
def Act.sleepSeconds {State Result Fault : Type} (seconds : Float) : Act State Result Fault Unit :=
  if 0 < seconds then Act.sleep (Span.ofSeconds seconds) else Act.pause

end ModelAssist
