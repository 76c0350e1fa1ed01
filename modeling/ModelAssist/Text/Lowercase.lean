import ModelAssist.Text.CodeRange
import ModelAssist.Text.LowercaseTable

/-!
# Lower case

The lower-case form of a text, by the full rules of Unicode: the dotted capital I becomes two
characters, and a capital sigma at the end of a word becomes a final sigma.
-/

namespace ModelAssist.Text

/-- Holds of the characters that have a case. -/
def isCased (char : Char) : Bool :=
  inRanges casedRanges char.toNat

/-- Holds of the characters that do not interrupt a word of cased characters. -/
def isCaseIgnorable (char : Char) : Bool :=
  inRanges caseIgnorableRanges char.toNat

/-- The lower-case form of a character outside all context. -/
def lowerChar (char : Char) : List Char :=
  if char.toNat < 128 then [char.toLower]
  else if char = '\u0130' then ['i', '\u0307']
  else
    let code := char.toNat
    match lowercaseRuns.find? fun (first, last, step, _, _) =>
        first ≤ code && code ≤ last && (code - first) % step == 0 with
    | some (_, _, _, down, distance) =>
      [Char.ofNat (if down then code - distance else code + distance)]
    | none => [char]

/-- Holds if the nearest character that is not ignorable has a case. -/
def reachesCased (context : List Char) : Bool :=
  match context.find? (!isCaseIgnorable ·) with
  | some char => isCased char
  | none => false

/-- The lower-case form of a text that follows the characters of `before`, nearest first. -/
def lowerAfter (before : List Char) : List Char → List Char
  | [] => []
  | char :: rest =>
    let lowered :=
      if char = '\u03A3' then
        if reachesCased before && !reachesCased rest then ['\u03C2'] else ['\u03C3']
      else lowerChar char
    lowered ++ lowerAfter (char :: before) rest

/-- The lower-case form of a text. -/
def lower (text : List Char) : List Char :=
  lowerAfter [] text

end ModelAssist.Text
