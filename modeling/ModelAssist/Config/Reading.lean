import ModelAssist.Config.Coercion
import ModelAssist.Config.Settings
import ModelAssist.Path.Basic

/-!
# Reading settings

The settings that a record of sections stands for.  A setting that is not admitted leaves a
complaint, and reading goes on behind it; the first complaint is the one that a user is told.
-/

namespace ModelAssist

variable [Host]

/-- A setting that is not admitted. -/
structure Complaint where
  /-- The names that lead to the setting. -/
  place : List String
  given : Value
  reason : String
deriving Inhabited

/-- The dotted names that lead to the setting. -/
def Complaint.placeText (complaint : Complaint) : String :=
  String.intercalate "." complaint.place

/-- A home directory that cannot be found. -/
inductive HomeFault where
  /-- The path names somebody whose home directory is not known. -/
  | unknown
deriving DecidableEq, Repr, Inhabited

/-- What is said about a home directory that cannot be found. -/
def HomeFault.message : HomeFault → String
  | .unknown => "Could not determine home directory."

/-- A step of reading, which may leave complaints; only a home directory that cannot be found ends
it. -/
abbrev Reading := StateT (List Complaint) (Except HomeFault)

namespace Reading

/-- Leaves a complaint. -/
def complain (place : List String) (given : Value) (reason : String) : Reading Unit :=
  modify (· ++ [⟨place, given, reason⟩])

/-- The setting under a key of a section, read by `accept`; what is not given or not admitted is the
fallback. -/
def field {Setting : Type} (place : List String) (entries : Entries) (key : String)
    (fallback : Setting) (accept : Value → Except String Setting) : Reading Setting :=
  match entries.field? key with
  | none => pure fallback
  | some given =>
    match accept given with
    | .ok setting => pure setting
    | .error reason => do
      complain (place ++ [key]) given reason
      pure fallback

end Reading

/-- What is said where a record is missing. -/
def notARecord (sort : String) : String :=
  "Input should be a valid dictionary or instance of " ++ sort

/-- The text of a reason that a rule of a setting gives. -/
def ruleBroken (reason : String) : String :=
  "Value error, " ++ reason

/-- The layout that a setting stands for. -/
def LogFormat.accept : Value → Except String LogFormat
  | .text name =>
    match ofName? name with
    | some format => .ok format
    | none => .error "Input should be 'json' or 'console'"
  | _ => .error "Input should be 'json' or 'console'"

/-- The level that a setting stands for. -/
def LogLevel.accept : Value → Except String LogLevel
  | .text name =>
    match ofName? name with
    | some level => .ok level
    | none => .error "Input should be 'DEBUG', 'INFO', 'WARNING', 'ERROR' or 'CRITICAL'"
  | _ => .error "Input should be 'DEBUG', 'INFO', 'WARNING', 'ERROR' or 'CRITICAL'"

/-- The level that a setting stands for, if it is not null. -/
def LogLevel.acceptOptional : Value → Except String (Option LogLevel)
  | .null => .ok none
  | value => (LogLevel.accept value).map some

namespace LogOutput

/-- The destination that a text names: the error stream or an absolute path. -/
def destinationOf (text : String) : Except HomeFault (Except String String) :=
  if text = errorStream then .ok (.ok text)
  else if text = outputStream then
    .ok (.error (ruleBroken (outputStream ++ " is reserved for the language server protocol")))
  else
    match (Path.ofText text).expandHome? with
    | none => .error .unknown
    | some path =>
      if path.isAbsolute then .ok (.ok path.text)
      else .ok (.error (ruleBroken ("File destination must be absolute path: " ++ text)))

/-- The destination under its key. -/
def readDestination (place : List String) (entries : Entries) : Reading String := do
  match entries.field? "destination" with
  | none => pure errorStream
  | some given =>
    let destination ← match Coercion.text given with
      | .ok text => liftM (destinationOf text)
      | .error reason => pure (.error reason)
    match destination with
    | .ok destination => pure destination
    | .error reason => do
      Reading.complain (place ++ ["destination"]) given reason
      pure errorStream

/-- The place that log lines go to. -/
def read (place : List String) : Value → Reading LogOutput
  | .record entries => do
    let format ← Reading.field place entries "format" .console LogFormat.accept
    let destination ← readDestination place entries
    let level ← Reading.field place entries "level" none LogLevel.acceptOptional
    pure ⟨format, destination, level⟩
  | given => do
    Reading.complain place given (notARecord "LogOutputConfig")
    pure default

/-- The places that log lines go to, the first one at the given position. -/
def readAll (place : List String) (position : Nat) : List Value → Reading (List LogOutput)
  | [] => pure []
  | given :: rest => do
    let output ← read (place ++ [Number.intText position]) given
    let others ← readAll place (position + 1) rest
    pure (output :: others)

end LogOutput

/-- The settings of the log. -/
def LoggingSettings.read (place : List String) : Value → Reading LoggingSettings
  | .record entries => do
    let level ← Reading.field place entries "level" .info LogLevel.accept
    let outputs ← match Entries.field? entries "outputs" with
      | none => pure [default]
      | some (.list elements) => LogOutput.readAll (place ++ ["outputs"]) 0 elements
      | some given => do
        Reading.complain (place ++ ["outputs"]) given "Input should be a valid list"
        pure [default]
    pure ⟨level, outputs⟩
  | given => do
    Reading.complain place given (notARecord "LoggingConfig")
    pure default

/-- The settings of the grammar. -/
def GrammarSettings.read (place : List String) : Value → Reading GrammarSettings
  | .record entries => do
    let fallback : GrammarSettings := default
    let module ← Reading.field place entries "module" fallback.module Coercion.text
    let libraryPath ← Reading.field place entries "library_path" none Coercion.optionalText
    let symbol ← Reading.field place entries "symbol" fallback.symbol Coercion.text
    pure ⟨module, libraryPath, symbol⟩
  | given => do
    Reading.complain place given (notARecord "GrammarConfig")
    pure default

/-- The ports that there are. -/
def acceptPort (given : Value) : Except String Int := do
  let port ← Coercion.integer given
  if 0 < port ∧ port ≤ 65535 then .ok port
  else .error (ruleBroken ("Port must be 1-65535, got " ++ Number.intText port))

/-- The numbers that are not zero or below. -/
def acceptPositive (given : Value) : Except String Float := do
  let number ← Coercion.number given
  if number ≤ 0 then
    .error (ruleBroken ("Must be positive, got " ++ Number.floatText .plain number))
  else .ok number

/-- The numbers that are not below zero. -/
def acceptNonNegative (given : Value) : Except String Float := do
  let number ← Coercion.number given
  if number < 0 then
    .error (ruleBroken ("Must be non-negative, got " ++ Number.floatText .plain number))
  else .ok number

/-- The counts of attempts. -/
def acceptRetries (given : Value) : Except String Int := do
  let count ← Coercion.integer given
  if count < 1 then .error (ruleBroken ("Must be at least 1, got " ++ Number.intText count))
  else .ok count

/-- The settings of the external validator. -/
def ValidatorSettings.read (place : List String) : Value → Reading ValidatorSettings
  | .record entries => do
    let fallback : ValidatorSettings := default
    let jarPath ← Reading.field place entries "jar_path" none Coercion.optionalText
    let host ← Reading.field place entries "host" fallback.host Coercion.text
    let port ← Reading.field place entries "port" fallback.port acceptPort
    let timeout ← Reading.field place entries "timeout_sec" fallback.timeoutSeconds acceptPositive
    let java ← Reading.field place entries "java" fallback.java Coercion.text
    let retries ←
      Reading.field place entries "connect_retries" fallback.connectRetries acceptRetries
    let delay ←
      Reading.field place entries "retry_delay_sec" fallback.retryDelaySeconds acceptPositive
    pure ⟨jarPath, host, port, timeout, java, retries, delay⟩
  | given => do
    Reading.complain place given (notARecord "ValidatorConfig")
    pure default

/-- The settings of the schedule of validations. -/
def ValidationSettings.read (place : List String) : Value → Reading ValidationSettings
  | .record entries => do
    let fallback : ValidationSettings := default
    let debounce ←
      Reading.field place entries "debounce_sec" fallback.debounceSeconds acceptNonNegative
    let dependentDebounce ← Reading.field place entries "dependent_debounce_sec"
      fallback.dependentDebounceSeconds acceptNonNegative
    pure ⟨debounce, dependentDebounce⟩
  | given => do
    Reading.complain place given (notARecord "ValidationConfig")
    pure default

namespace Settings

/-- The names of the sections. -/
def sectionNames : List String := ["logging", "grammar", "validator", "validation"]

/-- A section under its name; one that is not given has the fallback's settings. -/
def readSection {Section : Type} (entries : Entries) (name : String) (fallback : Section)
    (read : List String → Value → Reading Section) : Reading Section :=
  match entries.field? name with
  | none => pure fallback
  | some given => read [name] given

/-- Complains about every entry that is no section. -/
def rejectOthers : Entries → Reading Unit
  | [] => pure ()
  | (key, given) :: rest => do
    if key.display ∉ sectionNames then
      Reading.complain [key.display] given "Extra inputs are not permitted"
    rejectOthers rest

/-- All settings; further sections are complained about unless `lenient`. -/
def read (entries : Entries) (lenient : Bool) : Reading Settings := do
  let logging ← readSection entries "logging" default LoggingSettings.read
  let grammar ← readSection entries "grammar" default GrammarSettings.read
  let validator ← readSection entries "validator" default ValidatorSettings.read
  let validation ← readSection entries "validation" default ValidationSettings.read
  unless lenient do rejectOthers entries
  pure ⟨logging, grammar, validator, validation⟩

end Settings

/-- Why settings cannot be read. -/
inductive ReadingFault where
  /-- A home directory cannot be found. -/
  | home (fault : HomeFault)
  /-- A setting is not admitted; the first one is told. -/
  | notAdmitted (complaint : Complaint)
deriving Inhabited

/-- The outcome of reading: what was read, or the first complaint. -/
def Reading.outcome {Read : Type} (reading : Reading Read) : Except ReadingFault Read :=
  match reading.run [] with
  | .error fault => .error (.home fault)
  | .ok (_, complaint :: _) => .error (.notAdmitted complaint)
  | .ok (read, []) => .ok read

end ModelAssist
