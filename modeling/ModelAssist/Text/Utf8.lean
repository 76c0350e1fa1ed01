/-!
# UTF-8

The byte form of a text, and decoding of byte strings that may be damaged.  `decode` reads any byte
string as a list of characters and of damaged stretches, each stretch as long as the start of a
well-formed sequence goes.  A caller then chooses to mark the stretches (`decodeMarking`), to drop
them (`decodeDropping`) or to refuse the bytes (`decode?`).
-/

namespace ModelAssist.Text

/-- The UTF-8 bytes of a text. -/
def utf8 (text : List Char) : List UInt8 :=
  text.flatMap String.utf8EncodeChar

namespace Utf8

/-- Holds of the bytes that continue a sequence. -/
def isContinuation (byte : UInt8) : Bool :=
  0x80 ≤ byte && byte ≤ 0xBF

/-- Holds of the second bytes that may follow the first byte of a three-byte sequence. -/
def isSecondOfThree (first second : UInt8) : Bool :=
  if first = 0xE0 then 0xA0 ≤ second && second ≤ 0xBF
  else if first = 0xED then 0x80 ≤ second && second ≤ 0x9F
  else isContinuation second

/-- Holds of the second bytes that may follow the first byte of a four-byte sequence. -/
def isSecondOfFour (first second : UInt8) : Bool :=
  if first = 0xF0 then 0x90 ≤ second && second ≤ 0xBF
  else if first = 0xF4 then 0x80 ≤ second && second ≤ 0x8F
  else isContinuation second

/-- The six payload bits of a continuation byte. -/
def payload (byte : UInt8) : Nat :=
  byte.toNat % 64

end Utf8

open Utf8

/-- The characters of a byte string, with `none` for every damaged stretch. -/
def decode : List UInt8 → List (Option Char)
  | [] => []
  | first :: rest =>
    if first < 0x80 then
      some (Char.ofNat first.toNat) :: decode rest
    else if 0xC2 ≤ first && first ≤ 0xDF then
      match rest with
      | second :: rest' =>
        if isContinuation second then
          some (Char.ofNat (first.toNat % 32 * 64 + payload second)) :: decode rest'
        else none :: decode (second :: rest')
      | [] => [none]
    else if 0xE0 ≤ first && first ≤ 0xEF then
      match rest with
      | second :: rest' =>
        if isSecondOfThree first second then
          match rest' with
          | third :: rest'' =>
            if isContinuation third then
              some (Char.ofNat ((first.toNat % 16 * 64 + payload second) * 64 + payload third))
                :: decode rest''
            else none :: decode (third :: rest'')
          | [] => [none]
        else none :: decode (second :: rest')
      | [] => [none]
    else if 0xF0 ≤ first && first ≤ 0xF4 then
      match rest with
      | second :: rest' =>
        if isSecondOfFour first second then
          match rest' with
          | third :: rest'' =>
            if isContinuation third then
              match rest'' with
              | fourth :: rest''' =>
                if isContinuation fourth then
                  some (Char.ofNat
                    (((first.toNat % 8 * 64 + payload second) * 64 + payload third) * 64
                      + payload fourth)) :: decode rest'''
                else none :: decode (fourth :: rest''')
              | [] => [none]
            else none :: decode (third :: rest'')
          | [] => [none]
        else none :: decode (second :: rest')
      | [] => [none]
    else none :: decode rest
  termination_by bytes => bytes.length

/-- The character that stands for a damaged stretch. -/
def replacement : Char := '\uFFFD'

/-- The text of a byte string, every damaged stretch marked by `replacement`. -/
def decodeMarking (bytes : List UInt8) : List Char :=
  (decode bytes).map (·.getD replacement)

/-- The text of a byte string without its damaged stretches. -/
def decodeDropping (bytes : List UInt8) : List Char :=
  (decode bytes).filterMap id

/-- The text of a byte string, if no part of it is damaged. -/
def decode? (bytes : List UInt8) : Option (List Char) :=
  (decode bytes).mapM id

end ModelAssist.Text
