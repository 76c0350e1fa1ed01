import ModelAssist.Log.Level

/-!
# Settings

What a user can set, section by section, with the values that hold where nothing is set.
-/

namespace ModelAssist

/-- The layout of log lines. -/
inductive LogFormat where
  /-- One JSON object a line. -/
  | json
  /-- Text for people. -/
  | console
deriving DecidableEq, Repr, Inhabited

/-- The name of a layout in settings. -/
def LogFormat.name : LogFormat → String
  | .json => "json"
  | .console => "console"

/-- The layout of a name. -/
def LogFormat.ofName? : String → Option LogFormat
  | "json" => some .json
  | "console" => some .console
  | _ => none

/-- The destination that stands for the error stream. -/
def errorStream : String := "stderr"

/-- The destination that no log may use, as it carries the messages of the protocol. -/
def outputStream : String := "stdout"

/-- One place that log lines go to. -/
structure LogOutput where
  /-- The layout of the lines. -/
  format : LogFormat := .console
  /-- The error stream or the path of a file. -/
  destination : String := errorStream
  /-- The least level that is written, if it is not the one of the whole log. -/
  level : Option LogLevel := none
deriving DecidableEq, Repr, Inhabited

/-- The settings of the log. -/
structure LoggingSettings where
  /-- The least level that is logged. -/
  level : LogLevel := .info
  /-- Where log lines go to. -/
  outputs : List LogOutput := [default]
deriving DecidableEq, Repr, Inhabited

/-- The settings of the grammar. -/
structure GrammarSettings where
  /-- The module that provides the grammar. -/
  module : String := "tree_sitter_umple"
  /-- The shared library to take instead of the module. -/
  libraryPath : Option String := none
  /-- The name of the grammar inside the shared library. -/
  symbol : String := "tree_sitter_umple"
deriving DecidableEq, Repr, Inhabited

/-- The settings of the external validator. -/
structure ValidatorSettings where
  /-- The program of the validator; without it nothing is validated. -/
  jarPath : Option String := none
  /-- Where the validator listens. -/
  host : String := "localhost"
  port : Int := 5555
  /-- The longest time of one exchange. -/
  timeoutSeconds : Float := 50
  /-- The program that runs the validator. -/
  java : String := "java"
  /-- How often a connection is tried after the validator was started. -/
  connectRetries : Int := 5
  /-- The pause before each of these. -/
  retryDelaySeconds : Float := 0.15
deriving Repr, Inhabited

/-- The settings of the schedule of validations. -/
structure ValidationSettings where
  /-- The quiet time after an edit before its document is validated. -/
  debounceSeconds : Float := 0.3
  /-- The quiet time after an edit before the documents that import its document are validated. -/
  dependentDebounceSeconds : Float := 0.5
deriving Repr, Inhabited

/-- All settings. -/
structure Settings where
  logging : LoggingSettings := default
  grammar : GrammarSettings := default
  validator : ValidatorSettings := default
  validation : ValidationSettings := default
deriving Repr, Inhabited

end ModelAssist
