import ModelAssist.Config.Coercion
import ModelAssist.Data.Integer
import ModelAssist.Data.Yaml.Moment
import ModelAssist.Data.Yaml.Token
import ModelAssist.Text.Lowercase

/-!
# Scalars of YAML

A scalar has a kind: that of its tag, or for a plain scalar without a tag the kind that its text
looks like.  What it stands for is made from its text by the rules of the kind, which may find that
the text is none of that kind after all.
-/

namespace ModelAssist.Yaml

/-- The kinds of nodes. -/
inductive NodeKind where
  | null
  | truth
  | integer
  | number
  | moment
  | text
  | sequence
  | mapping
  /-- The mark of a key whose value is merged into the mapping. -/
  | merge
  /-- The mark of a default value, which stands for nothing but itself. -/
  | fallback
  /-- Any other kind. -/
  | other
deriving DecidableEq, Repr, Inhabited

/-- Why a document has no value. -/
inductive YamlFault where
  /-- It does not follow the grammar, or a node is not what its kind needs. -/
  | malformed
  /-- A text has no characters where a number starts. -/
  | empty
  | notInteger (text : String) (base : Nat)
  /-- A numeral has more digits than the limit. -/
  | tooLong (digits : Nat)
  | notNumber (text : String)
  /-- A number of base sixty has too many places. -/
  | tooLarge
  | notTruth (word : String)
  | notMoment
  /-- There is no such day, time or offset. -/
  | noSuchMoment (reason : String)
deriving DecidableEq, Repr, Inhabited

/-- What is said of a document without a value. -/
def YamlFault.message : YamlFault → String
  | .malformed => ""
  | .empty => "string index out of range"
  | .notInteger text base =>
    "invalid literal for int() with base " ++ Number.intText base ++ ": " ++
      String.ofList ((Text.quote text.toList).take Numeral.quoteLimit)
  | .tooLong digits => (IntegerFault.tooLong digits).message
  | .notNumber text => "could not convert string to float: " ++ Text.quoted text
  | .tooLarge => "int too large to convert to float"
  | .notTruth word => Text.quoted word
  | .notMoment => "'NoneType' object has no attribute 'groupdict'"
  | .noSuchMoment reason => reason

/-- The words for true. -/
def trueWords : List String :=
  ["yes", "Yes", "YES", "true", "True", "TRUE", "on", "On", "ON"]

/-- The words for false. -/
def falseWords : List String :=
  ["no", "No", "NO", "false", "False", "FALSE", "off", "Off", "OFF"]

/-- The words for nothing. -/
def nullWords : List String :=
  ["", "~", "null", "Null", "NULL"]

/-- The mark of a key whose value is merged into the mapping. -/
def mergeMark : String := "<<"

/-- The mark of a default value, which stands for nothing but itself. -/
def defaultMark : String := "="

/-- A text without underscores. -/
def withoutUnderscores (text : List Char) : List Char :=
  text.filter (· ≠ '_')

/-- Holds of the characters of numerals of a base. -/
def isOfNumeral (base : Nat) (char : Char) : Bool :=
  char = '_' || (hexDigitValue? char).any (· < base)

/-- Holds of the texts that have a digit first and then only digits and underscores. -/
def isNumeral : List Char → Bool
  | [] => false
  | first :: rest => first.isDigit && rest.all (isOfNumeral 10)

/-- A text without its sign, and whether that was a minus. -/
def splitSign : List Char → Bool × List Char
  | '-' :: rest => (true, rest)
  | '+' :: rest => (false, rest)
  | rest => (false, rest)

/-- The pieces of a text between its colons. -/
def colonPieces (text : List Char) : List (List Char) :=
  text.splitOn ':'

/-- Holds of the numerals from zero to fifty-nine. -/
def isSixtieth : List Char → Bool
  | [digit] => digit.isDigit
  | [tens, digit] => '0' ≤ tens && tens ≤ '5' && digit.isDigit
  | _ => false

/-- Holds of the texts of numerals of base sixty. -/
def isSixtieths (text : List Char) : Bool :=
  match colonPieces text with
  | first :: second :: others => isNumeral first && (second :: others).all isSixtieth
  | _ => false

/-- Holds of the texts that look like an integer. -/
def looksInteger (text : List Char) : Bool :=
  match (splitSign text).2 with
  | '0' :: 'b' :: rest => !rest.isEmpty && rest.all (isOfNumeral 2)
  | '0' :: 'x' :: rest => !rest.isEmpty && rest.all (isOfNumeral 16)
  | '0' :: rest => rest.all (isOfNumeral 8)
  | unsigned => isNumeral unsigned || isSixtieths unsigned

/-- Holds of the ends of numbers that are empty or have a mark, a sign and digits. -/
def isExponent : List Char → Bool
  | [] => true
  | mark :: sign :: digits =>
    (mark = 'e' || mark = 'E') && (sign = '+' || sign = '-') && !digits.isEmpty &&
      digits.all Char.isDigit
  | _ => false

/-- Holds of the texts that look like a number with a point; without digits before the point there
is no sign. -/
def looksNumber (text : List Char) : Bool :=
  let unsigned := (splitSign text).2
  let whole := unsigned.takeWhile (· ≠ '.')
  match unsigned.drop whole.length with
  | '.' :: rest =>
    let fraction := rest.takeWhile (isOfNumeral 10)
    let exponent := rest.drop fraction.length
    (isNumeral whole && isExponent exponent) || (isSixtieths whole && exponent.isEmpty) ||
      (text.head? = some '.' && isNumeral fraction && isExponent exponent) ||
      (whole.isEmpty && ["inf", "Inf", "INF"].contains (String.ofList rest)) ||
      (text.head? = some '.' && ["nan", "NaN", "NAN"].contains (String.ofList rest))
  | _ => false

/-- The kind that a plain scalar looks like. -/
def kindOfPlain (content : String) : NodeKind :=
  let text := content.toList
  if trueWords.contains content || falseWords.contains content then .truth
  else if nullWords.contains content then .null
  else if content = mergeMark then .merge
  else if content = defaultMark then .fallback
  else if looksNumber text then .number
  else if looksInteger text then .integer
  else if (moment? text).any (·.isPlain) then .moment
  else .text

/-- The value of a digit of a base. -/
def digitOf? (base : Nat) (char : Char) : Option Nat :=
  ((Text.digitValue? char).or (hexDigitValue? char)).filter (· < base)

/-- The digits of a numeral whose base may be given in front of them. -/
def behindBase (base : Nat) (text : List Char) : List Char :=
  let mark := if base = 2 then 'b' else if base = 8 then 'o' else 'x'
  match text with
  | '0' :: letter :: rest => if base ≠ 10 && letter.toLower = mark then rest else text
  | _ => text

/-- The integer that a text writes with digits of a base. -/
def integerIn (base : Nat) (text : List Char) : Except YamlFault Int :=
  let (negative, unsigned) := splitSign (text.dropWhile Numeral.isMargin)
  let unsigned := behindBase base unsigned
  let digits := (unsigned.takeWhile fun char => (digitOf? base char).isSome).filterMap
    (digitOf? base)
  if base = 10 && Numeral.digitLimit < digits.length then .error (.tooLong digits.length)
  else if digits.isEmpty || !(unsigned.drop digits.length).all Numeral.isMargin then
    .error (.notInteger (String.ofList text) base)
  else
    let size := digits.foldl (fun value digit => value * base + digit) 0
    .ok (if negative then -(size : Int) else size)

/-- The integer that a text writes, in one of several notations. -/
def integerOf (text : List Char) : Except YamlFault Int := do
  let (negative, unsigned) := splitSign (withoutUnderscores text)
  let size ← match unsigned with
    | [] => .error .empty
    | ['0'] => .ok 0
    | '0' :: 'b' :: rest => integerIn 2 rest
    | '0' :: 'x' :: rest => integerIn 16 rest
    | '0' :: _ => integerIn 8 unsigned
    | _ =>
      if unsigned.contains ':' then do
        let places ← (colonPieces unsigned).mapM (integerIn 10)
        .ok (places.foldl (fun value place => value * 60 + place) 0)
      else integerIn 10 unsigned
  .ok (if negative then -size else size)

/-- The floating-point number that a text writes with digits of any script. -/
def realOf (text : List Char) : Except YamlFault Float :=
  let ascii := (Text.trim text).map fun char =>
    (Text.digitValue? char).elim char fun digit => Char.ofNat (48 + digit)
  match Coercion.plainNumber? ascii with
  | some value => .ok value
  | none => .error (.notNumber (String.ofList text))

/-- A sum with some places of base sixty added, the last place first, which counts for the given
power; powers beyond all floating-point numbers are refused. -/
def sumOfPlaces (sum : Float) (power : Nat) : List Float → Except YamlFault Float
  | [] => .ok sum
  | place :: others =>
    if Nat.pow 2 1024 ≤ power then .error .tooLarge
    else sumOfPlaces (sum + place * Number.ofInt power) (power * 60) others

/-- The floating-point number that a text writes, in one of several notations. -/
def numberOf (text : List Char) : Except YamlFault Float := do
  let (negative, unsigned) := splitSign (Text.lower (withoutUnderscores text))
  let size ← match unsigned with
    | [] => .error .empty
    | _ =>
      if unsigned = ".inf".toList then .ok Coercion.infinity
      else if unsigned = ".nan".toList then .ok (Coercion.infinity - Coercion.infinity)
      else if unsigned.contains ':' then do
        let places ← (colonPieces unsigned).mapM realOf
        sumOfPlaces 0 1 places.reverse
      else realOf unsigned
  .ok (if negative then -size else size)

/-- The truth value that a word stands for, whatever the case of its letters. -/
def truthOf (content : String) : Except YamlFault Value :=
  let word := String.ofList (Text.lower content.toList)
  if trueWords.contains word then .ok (.bool true)
  else if falseWords.contains word then .ok (.bool false)
  else .error (.notTruth word)

/-- The date or the moment that a text writes. -/
def momentOf (text : List Char) : Except YamlFault Value :=
  match moment? text with
  | none => .error .notMoment
  | some parts =>
    match parts.defect? with
    | some reason => .error (.noSuchMoment reason)
    | none => .ok (.moment parts.text)

/-- What a scalar of a kind stands for. -/
def valueOf (content : String) : NodeKind → Except YamlFault Value
  | .null => .ok .null
  | .truth => truthOf content
  | .integer => (integerOf content.toList).map .int
  | .number => (numberOf content.toList).map .float
  | .moment => momentOf content.toList
  | .text => .ok (.text content)
  | _ => .error .malformed

end ModelAssist.Yaml
