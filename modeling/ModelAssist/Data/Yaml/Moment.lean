import ModelAssist.Number.Notation

/-!
# Moments in YAML

Dates, and moments with a time of day and perhaps an offset, as plain scalars write them.  A text of
the right shape may still write a day or a time that does not exist.
-/

namespace ModelAssist.Yaml

/-- The distance of a clock from universal time. -/
structure Offset where
  isNegative : Bool
  hours : Nat
  minutes : Nat
deriving DecidableEq, Repr

/-- A time of day. -/
structure Clock where
  hour : Nat
  minute : Nat
  second : Nat
  /-- The digits behind the point. -/
  fraction : List Char
  offset : Option Offset
deriving DecidableEq, Repr

/-- What the text of a date or of a moment says. -/
structure MomentParts where
  year : Nat
  month : Nat
  day : Nat
  /-- Set if the month and the day are written with two digits each. -/
  isPadded : Bool
  clock : Option Clock
deriving DecidableEq, Repr

/-- The number that some decimal digits write. -/
def decimalOf (digits : List Char) : Nat :=
  digits.foldl (fun value digit => value * 10 + (digit.toNat - 48)) 0

/-- The digits at the front of a text, at most so many, and the rest; at least so many are
needed. -/
def takeDigits (least most : Nat) (text : List Char) : Option (List Char × List Char) :=
  let digits := (text.take most).takeWhile Char.isDigit
  if digits.length < least then none else some (digits, text.drop digits.length)

/-- A text behind a character that it has to start with. -/
def after? (char : Char) : List Char → Option (List Char)
  | first :: rest => if first = char then some rest else none
  | [] => none

/-- The offset that the end of a text writes; nothing is none. -/
def offset? (text : List Char) : Option (Option Offset) :=
  match text, text.dropWhile fun char => char = ' ' || char = '\t' with
  | [], _ => some none
  | _, ['Z'] => some (some ⟨false, 0, 0⟩)
  | _, sign :: rest =>
    if sign = '+' || sign = '-' then do
      let (hours, rest) ← takeDigits 1 2 rest
      match rest with
      | [] => some (some ⟨sign = '-', decimalOf hours, 0⟩)
      | rest => do
        let (minutes, rest) ← takeDigits 2 2 (← after? ':' rest)
        if rest.isEmpty then some (some ⟨sign = '-', decimalOf hours, decimalOf minutes⟩) else none
    else none
  | _, [] => none

/-- The time of day that the end of a text writes. -/
def clock? (text : List Char) : Option Clock := do
  let (hour, text) ← takeDigits 1 2 text
  let (minute, text) ← takeDigits 2 2 (← after? ':' text)
  let (second, text) ← takeDigits 2 2 (← after? ':' text)
  let (fraction, text) := match text with
    | '.' :: rest => rest.span Char.isDigit
    | rest => ([], rest)
  let offset ← offset? text
  some ⟨decimalOf hour, decimalOf minute, decimalOf second, fraction, offset⟩

/-- What a text of the shape of a date or of a moment says. -/
def moment? (text : List Char) : Option MomentParts := do
  let (year, text) ← takeDigits 4 4 text
  let (month, text) ← takeDigits 1 2 (← after? '-' text)
  let (day, text) ← takeDigits 1 2 (← after? '-' text)
  let isPadded := month.length = 2 && day.length = 2
  let parts := MomentParts.mk (decimalOf year) (decimalOf month) (decimalOf day) isPadded
  match text with
  | [] => some (parts none)
  | 'T' :: rest | 't' :: rest => (clock? rest).map fun clock => parts (some clock)
  | char :: _ =>
    if char = ' ' || char = '\t' then
      (clock? (text.dropWhile fun char => char = ' ' || char = '\t')).map fun clock =>
        parts (some clock)
    else none

namespace MomentParts

/-- Holds of the moments that a scalar without a tag writes: dates alone need all their digits. -/
def isPlain (parts : MomentParts) : Bool :=
  parts.clock.isSome || parts.isPadded

/-- The count of days in a month. -/
def daysIn (year month : Nat) : Nat :=
  if month = 2 then
    if year % 4 = 0 && (year % 100 ≠ 0 || year % 400 = 0) then 29 else 28
  else if [4, 6, 9, 11].contains month then 30
  else 31

end MomentParts

namespace Offset

/-- The minutes of an offset, without its sign. -/
def size (offset : Offset) : Nat :=
  offset.hours * 60 + offset.minutes

/-- What is said of an offset of a day or more. -/
def refusal (offset : Offset) : String :=
  let minutes : Int := if offset.isNegative then -(offset.size : Int) else offset.size
  let days := "days=" ++ Number.intText (minutes / 1440)
  let seconds := minutes % 1440 * 60
  "offset must be a timedelta strictly between -timedelta(hours=24) and timedelta(hours=24), " ++
    "not datetime.timedelta(" ++ days ++
    (if seconds = 0 then "" else ", seconds=" ++ Number.intText seconds) ++ ")"

end Offset

namespace MomentParts

/-- What is said of a date that does not exist. -/
def dateDefect? (parts : MomentParts) : Option String :=
  if parts.year = 0 then some "year 0 is out of range"
  else if parts.month = 0 || 12 < parts.month then some "month must be in 1..12"
  else if parts.day = 0 || daysIn parts.year parts.month < parts.day then
    some "day is out of range for month"
  else none

/-- What is said of a time that does not exist. -/
def clockDefect? (clock : Clock) : Option String :=
  if 23 < clock.hour then some "hour must be in 0..23"
  else if 59 < clock.minute then some "minute must be in 0..59"
  else if 59 < clock.second then some "second must be in 0..59"
  else none

/-- What is said of a moment that does not exist; the offset is looked at first. -/
def defect? (parts : MomentParts) : Option String :=
  match parts.clock with
  | none => parts.dateDefect?
  | some clock =>
    match clock.offset.filter (1440 ≤ ·.size) with
    | some offset => some offset.refusal
    | none => parts.dateDefect?.or (clockDefect? clock)

/-- Two digits or more. -/
def pair (value : Nat) : String :=
  String.ofList (Number.padded 2 value)

/-- The text of an offset. -/
def offsetText (offset : Offset) : String :=
  (if offset.isNegative && offset.size ≠ 0 then "-" else "+") ++ pair (offset.size / 60) ++ ":" ++
    pair (offset.size % 60)

/-- The text of the microseconds that the digits behind the point write, if there are any. -/
def fractionText (fraction : List Char) : String :=
  let digits := fraction.take 6 ++ List.replicate (6 - fraction.length) '0'
  if digits.all (· = '0') then "" else "." ++ String.ofList digits

/-- The text of a moment. -/
def text (parts : MomentParts) : String :=
  let date := String.ofList (Number.padded 4 parts.year) ++ "-" ++ pair parts.month ++ "-" ++
    pair parts.day
  match parts.clock with
  | none => date
  | some clock =>
    date ++ " " ++ pair clock.hour ++ ":" ++ pair clock.minute ++ ":" ++ pair clock.second ++
      fractionText clock.fraction ++ clock.offset.elim "" offsetText

end MomentParts

end ModelAssist.Yaml
