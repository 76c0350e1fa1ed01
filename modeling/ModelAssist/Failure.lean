import ModelAssist.Data.Value
import ModelAssist.Path.Basic

/-!
# Failures

What can go wrong with the configuration, with the grammar and with the external validator.  Every
failure has a number, a name, a message for the user and details for the log.  Problems in a model
are not failures, and neither is cancellation.
-/

namespace ModelAssist

/-- What is said where the parts of something lie too deep inside each other. -/
def tooDeepText : String := "maximum recursion depth exceeded"

/-- Why a value cannot be shown in a message. -/
inductive DisplayFault where
  /-- An integer in it has too many digits. -/
  | tooLong
  /-- Its parts lie too deep inside each other. -/
  | tooDeep
deriving DecidableEq, Repr, Inhabited

/-- What is said of a value that cannot be shown. -/
def DisplayFault.message : DisplayFault → String
  | .tooLong => unspellableText
  | .tooDeep => tooDeepText

/-- The text of a value in a message, or why it cannot be shown; only lists and records have
parts. -/
def Value.shown [Host] (value : Value) : Except DisplayFault String :=
  if !value.canSpell then .error .tooLong
  else
    match value with
    | .list _ | .record _ =>
      if Host.tooDeep .display value.display.toList then .error .tooDeep else .ok value.display
    | _ => .ok value.display

/-- What is wrong with a configuration document. -/
inductive ConfigDefect where
  /-- It does not follow the grammar of such documents. -/
  | notWellFormed
  /-- It says something else than the given reason admits. -/
  | unusable (reason : String)
deriving DecidableEq, Repr, Inhabited

/-- A failure and what it is about. -/
inductive Failure where
  /-- A configuration document cannot be used. -/
  | badDocument (path : String) (defect : ConfigDefect)
  /-- A setting has a value that is not admitted. -/
  | badSetting (field value reason : String)
  /-- The grammar cannot be loaded. -/
  | grammarUnavailable (source reason : String)
  /-- A query does not fit the grammar. -/
  | badQuery (query reason : String)
  | validatorNotSet
  /-- The program of the validator does not exist. -/
  | validatorMissing (path : String)
  | validatorNotStarted (java reason : String)
  /-- The validator does not answer. -/
  | validatorUnreachable (host : String) (port : Int) (reason : String)
  /-- The validator does not answer in time. -/
  | validatorTimeout (host : String) (port : Int) (seconds : Value)
deriving Inhabited

/-- What a failure concerns. -/
inductive FailureArea where
  | config
  | grammar
  | validator
deriving DecidableEq, Repr

/-- The kinds of failures. -/
inductive FailureKind where
  /-- A configuration document cannot be used. -/
  | badDocument
  /-- A setting has a value that is not admitted. -/
  | badSetting
  /-- The grammar cannot be loaded. -/
  | grammarUnavailable
  /-- A query does not fit the grammar. -/
  | badQuery
  | validatorNotSet
  /-- The program of the validator does not exist. -/
  | validatorMissing
  | validatorNotStarted
  /-- The validator does not answer. -/
  | validatorUnreachable
  /-- The validator does not answer in time. -/
  | validatorTimeout
deriving DecidableEq, Repr, Inhabited

namespace FailureKind

/-- The number of a kind. -/
def code : FailureKind → Nat
  | .badDocument => 2001
  | .badSetting => 2002
  | .grammarUnavailable => 3001
  | .badQuery => 3002
  | .validatorNotSet => 8001
  | .validatorMissing => 8002
  | .validatorNotStarted => 8003
  | .validatorUnreachable => 8004
  | .validatorTimeout => 8005

/-- The name of a kind. -/
def name : FailureKind → String
  | .badDocument => "CONFIG_PARSE_ERROR"
  | .badSetting => "CONFIG_INVALID_VALUE"
  | .grammarUnavailable => "GRAMMAR_NOT_AVAILABLE"
  | .badQuery => "GRAMMAR_QUERY_INVALID"
  | .validatorNotSet => "VALIDATOR_NOT_CONFIGURED"
  | .validatorMissing => "VALIDATOR_JAR_NOT_FOUND"
  | .validatorNotStarted => "VALIDATOR_JAVA_MISSING"
  | .validatorUnreachable => "VALIDATOR_UNREACHABLE"
  | .validatorTimeout => "VALIDATOR_TIMEOUT"

/-- What a kind concerns. -/
def area : FailureKind → FailureArea
  | .badDocument | .badSetting => .config
  | .grammarUnavailable | .badQuery => .grammar
  | _ => .validator

end FailureKind

namespace Failure

/-- The kind of a failure. -/
def kind : Failure → FailureKind
  | .badDocument .. => .badDocument
  | .badSetting .. => .badSetting
  | .grammarUnavailable .. => .grammarUnavailable
  | .badQuery .. => .badQuery
  | .validatorNotSet => .validatorNotSet
  | .validatorMissing .. => .validatorMissing
  | .validatorNotStarted .. => .validatorNotStarted
  | .validatorUnreachable .. => .validatorUnreachable
  | .validatorTimeout .. => .validatorTimeout

/-- What the user is told. -/
def message : Failure → String
  | .badDocument path .notWellFormed => "Failed to parse config at " ++ path
  | .badDocument path (.unusable reason) => "Failed to parse config at " ++ path ++ ": " ++ reason
  | .badSetting field _ reason => "Invalid value for '" ++ field ++ "': " ++ reason
  | .grammarUnavailable source reason =>
    "Umple grammar not available from " ++ source ++ ": " ++ reason
  | .badQuery query reason =>
    "Query '" ++ query ++ "' does not compile against the grammar: " ++ reason
  | .validatorNotSet =>
    "UmpleSync jar path not set. Configure initializationOptions.umpleSyncJarPath " ++
      "or UMPLESYNC_JAR_PATH."
  | .validatorMissing path =>
    "UmpleSync jar not found at " ++ path ++ ". Update the path or UMPLESYNC_JAR_PATH."
  | .validatorNotStarted java reason =>
    "Failed to start umplesync with '" ++ java ++ "': " ++ reason
  | .validatorUnreachable host port reason =>
    "Could not reach umplesync at " ++ host ++ ":" ++ Number.intText port ++ ": " ++ reason
  | .validatorTimeout host port seconds =>
    "umplesync at " ++ host ++ ":" ++ Number.intText port ++ " did not answer within " ++
      seconds.display ++ "s"

/-- What the log is told beside the message. -/
def details : Failure → Value
  | .badDocument path .notWellFormed => .ofFields [("path", .text path)]
  | .badDocument path (.unusable reason) =>
    .ofFields [("path", .text path), ("reason", .text reason)]
  | .badSetting field value reason =>
    .ofFields [("field", .text field), ("value", .text value), ("reason", .text reason)]
  | .grammarUnavailable source reason =>
    .ofFields [("source", .text source), ("reason", .text reason)]
  | .badQuery query reason => .ofFields [("query", .text query), ("reason", .text reason)]
  | .validatorNotSet => .ofFields []
  | .validatorMissing path => .ofFields [("path", .text path)]
  | .validatorNotStarted java reason =>
    .ofFields [("java", .text java), ("reason", .text reason)]
  | .validatorUnreachable host port reason =>
    .ofFields [("host", .text host), ("port", .int port), ("reason", .text reason)]
  | .validatorTimeout host port seconds =>
    .ofFields [("host", .text host), ("port", .int port), ("timeout_sec", seconds)]

/-- A failure in one line: its number, its name and its message. -/
def text (failure : Failure) : String :=
  "[" ++ Number.intText failure.kind.code ++ "] " ++ failure.kind.name ++ ": " ++ failure.message

end Failure

end ModelAssist
