import ModelAssist.Number.Notation
import ModelAssist.Text.Quoted
import ModelAssist.Text.Utf8

/-!
# Damaged texts

The first stretch of a byte string that is no UTF-8, and what is said about it.
-/

namespace ModelAssist.Text

/-- What is wrong with a stretch of bytes. -/
inductive Flaw where
  /-- Its first byte starts no character. -/
  | badStart
  /-- The byte behind it does not continue the character that it starts. -/
  | badContinuation
  /-- The bytes end before the character does. -/
  | cutOff
deriving DecidableEq, Repr

/-- A stretch of bytes that is no UTF-8. -/
structure Damage where
  /-- Where the stretch starts. -/
  offset : Nat
  bytes : List UInt8
  /-- What is wrong with them. -/
  flaw : Flaw
deriving DecidableEq, Repr

/-- The count of bytes of the character that a byte starts, zero if it starts none. -/
def charSize (first : UInt8) : Nat :=
  if first < 0x80 then 1
  else if 0xC2 ≤ first && first ≤ 0xDF then 2
  else if 0xE0 ≤ first && first ≤ 0xEF then 3
  else if 0xF0 ≤ first && first ≤ 0xF4 then 4
  else 0

/-- Holds if a byte may stand second, after the given one. -/
def fitsSecond (first second : UInt8) : Bool :=
  if charSize first = 3 then Utf8.isSecondOfThree first second
  else if charSize first = 4 then Utf8.isSecondOfFour first second
  else Utf8.isContinuation second

/-- How many of the bytes after the first one continue its character. -/
def fitting (first : UInt8) : List UInt8 → Nat
  | [] => 0
  | second :: rest =>
    if 2 ≤ charSize first && fitsSecond first second then
      1 + ((rest.take (charSize first - 2)).takeWhile Utf8.isContinuation).length
    else 0

/-- The first damaged stretch of the bytes from an offset on. -/
def damageFrom? (offset : Nat) : List UInt8 → Option Damage
  | [] => none
  | first :: rest =>
    let count := fitting first rest
    if charSize first = 0 then some ⟨offset, [first], .badStart⟩
    else if count + 1 = charSize first then
      damageFrom? (offset + count + 1) (rest.drop count)
    else
      some ⟨offset, first :: rest.take count,
        if rest.length = count then .cutOff else .badContinuation⟩
  termination_by bytes => bytes.length
  decreasing_by simp only [List.length_drop, List.length_cons]; omega

/-- The first damaged stretch of a byte string. -/
def damage? (bytes : List UInt8) : Option Damage :=
  damageFrom? 0 bytes

/-- What is said about a flaw. -/
def Flaw.message : Flaw → String
  | .badStart => "invalid start byte"
  | .badContinuation => "invalid continuation byte"
  | .cutOff => "unexpected end of data"

/-- What is said about a damaged stretch. -/
def Damage.message (damage : Damage) : String :=
  let place :=
    match damage.bytes with
    | [byte] =>
      "byte 0x" ++ String.ofList (hexadecimal 2 byte.toNat) ++ " in position " ++
        Number.intText damage.offset
    | bytes =>
      "bytes in position " ++ Number.intText damage.offset ++ "-" ++
        Number.intText (damage.offset + bytes.length - 1)
  "'utf-8' codec can't decode " ++ place ++ ": " ++ damage.flaw.message

end ModelAssist.Text
