/-!
# Log levels

How much a log record matters, and how much it has to matter to be written.
-/

namespace ModelAssist

/-- How much a log record matters. -/
inductive LogLevel where
  /-- Of use to the developers only. -/
  | debug
  /-- An ordinary event. -/
  | info
  /-- Something that the user may have to look at. -/
  | warning
  /-- Something that did not work. -/
  | error
  /-- Something after which work cannot go on. -/
  | critical
deriving DecidableEq, Repr, Inhabited

namespace LogLevel

/-- All levels, the least first. -/
def all : List LogLevel := [.debug, .info, .warning, .error, .critical]

/-- The name of a level in settings. -/
def name : LogLevel → String
  | .debug => "DEBUG"
  | .info => "INFO"
  | .warning => "WARNING"
  | .error => "ERROR"
  | .critical => "CRITICAL"

/-- The name of a level in log lines. -/
def label : LogLevel → String
  | .debug => "debug"
  | .info => "info"
  | .warning => "warning"
  | .error => "error"
  | .critical => "critical"

/-- The weight of a level; a record is written where it weighs at least as much as asked for. -/
def weight : LogLevel → Nat
  | .debug => 10
  | .info => 20
  | .warning => 30
  | .error => 40
  | .critical => 50

/-- The level of a name. -/
def ofName? (name : String) : Option LogLevel :=
  all.find? fun level => level.name = name

/-- The name of a level leads back to it. -/
theorem ofName?_name (level : LogLevel) : ofName? level.name = some level := by
  cases level <;> rfl

end LogLevel

end ModelAssist
