import ModelAssist.Number.Notation
import ModelAssist.Symbol.Entry

/-!
# Diagnostics

What an editor shows about a document: a range, a severity and a message.
-/

namespace ModelAssist

/-- How bad a problem is. -/
inductive Severity where
  /-- The model is wrong. -/
  | error
  /-- The model may be meant otherwise. -/
  | warning
deriving DecidableEq, Repr, Inhabited

namespace Severity

/-- The severity of a validator's number: those above two are warnings. -/
def ofNumber (number : Int) : Severity :=
  if 2 < number then .warning else .error

/-- The letter in front of the codes of a severity. -/
def letter : Severity → String
  | .error => "E"
  | .warning => "W"

/-- The number by which editors know a severity. -/
def number : Severity → Nat
  | .error => 1
  | .warning => 2

/-- The name of a severity. -/
def name : Severity → String
  | .error => "error"
  | .warning => "warning"

end Severity

/-- What is shown about a document. -/
structure Diagnostic where
  start : Position
  /-- Where the range ends. -/
  stop : Position
  severity : Severity
  message : String
deriving DecidableEq, Repr, Inhabited

namespace Diagnostic

/-- Who is named as the source of every diagnostic. -/
def source : String := "umple"

/-- A diagnostic of a file in one line, both counts from one. -/
def report (path : Path) (diagnostic : Diagnostic) : String :=
  path.text ++ ":" ++ Number.intText (diagnostic.start.line + 1) ++ ":" ++
    Number.intText (diagnostic.start.column + 1) ++ ": " ++ diagnostic.severity.name ++ ": " ++
    diagnostic.message

end Diagnostic

end ModelAssist
