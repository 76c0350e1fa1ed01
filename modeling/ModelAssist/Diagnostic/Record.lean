import ModelAssist.Data.Integer
import ModelAssist.Data.Json.Reader
import ModelAssist.Diagnostic.Basic

/-!
# Validator records

The problems that the validator reports: a JSON object with a list of results, which may stand
between other text and in which single quotes are escaped.  A payload that cannot be read has no
records, and entries of a wrong shape get defaults for what they do not say.
-/

namespace ModelAssist

/-- One problem as the validator reports it. -/
structure ValidatorRecord where
  /-- The name of the file, empty if it is not said. -/
  filename : String
  /-- The line, counted from one. -/
  line : Int
  severity : Severity
  errorCode : Option String
  message : String
deriving DecidableEq, Repr, Inhabited

/-- Why a payload breaks off the reading of records. -/
inductive PayloadFault where
  /-- A line or a severity is infinite. -/
  | infinite
  /-- An integer has more digits than the limit. -/
  | numeralTooLong (digits : Nat)
deriving DecidableEq, Repr

/-- What is said about such a payload. -/
def PayloadFault.message : PayloadFault → String
  | .infinite => IntegerFault.infinite.message
  | .numeralTooLong digits => (IntegerFault.tooLong digits).message

namespace ValidatorRecord

/-- The line of a record that does not say any. -/
def defaultLine : Int := 1

/-- The severity of a record that does not say any. -/
def defaultSeverity : Int := 3

/-- The code with the letter of its severity. -/
def code (record : ValidatorRecord) : Option String :=
  match record.errorCode with
  | none => none
  | some "" => none
  | some code => some (record.severity.letter ++ code)

/-- The integer in a field of an entry, or the default if the field holds none. -/
def integerField (entry : Entries) (name : String) (default : Int) : Except PayloadFault Int :=
  match ((entry.field? name).getD .null).integer with
  | .ok value => .ok value
  | .error .infinite => .error .infinite
  | .error _ => .ok default

/-- The text of a field of an entry that says something. -/
def textField? (entry : Entries) (name : String) : Option String :=
  match entry.field? name with
  | some value => if value.isTruthy then some value.display else none
  | none => none

/-- The record of an entry. -/
def ofEntry (entry : Entries) : Except PayloadFault ValidatorRecord := do
  let line ← integerField entry "line" defaultLine
  let severity ← integerField entry "severity" defaultSeverity
  return {
    filename := (textField? entry "filename").getD ""
    line
    severity := .ofNumber severity
    errorCode := textField? entry "errorCode"
    message := (textField? entry "message").getD "" }

/-- The records of a list of results; what is no object is left out. -/
def ofResults (results : List Value) : Except PayloadFault (List ValidatorRecord) :=
  (results.filterMap fun result =>
    match result with
    | .record entry => some entry
    | _ => none).mapM ofEntry

/-- A text in which no single quote is escaped. -/
def unescapeQuotes : List Char → List Char
  | [] => []
  | '\\' :: '\'' :: rest => '\'' :: unescapeQuotes rest
  | char :: rest => char :: unescapeQuotes rest

/-- The part of a text from its first opening brace to its last closing brace. -/
def payload? (text : List Char) : Option (List Char) :=
  let fromOpening := text.dropWhile (· ≠ '\x7b')
  let upToClosing := (fromOpening.reverse.dropWhile (· ≠ '\x7d')).reverse
  if upToClosing.isEmpty then none else some upToClosing

/-- The records in the problem segment of the validator's output. -/
def read (problems : String) : Except PayloadFault (List ValidatorRecord) :=
  match payload? problems.toList with
  | none => .ok []
  | some payload =>
    match Json.read (unescapeQuotes payload) with
    | .error .malformed => .ok []
    | .error (.numeralTooLong digits) => .error (.numeralTooLong digits)
    | .ok (.record entries) =>
      match Entries.field? entries "results" with
      | some (.list results) => ofResults results
      | _ => .ok []
    | .ok _ => .ok []

end ValidatorRecord

end ModelAssist
