import ModelAssist.Config.Settings
import ModelAssist.Log.Record
import ModelAssist.FileStore
import ModelAssist.Path.Basic

/-!
# Log output

Which lines go where.  A record is written to every output whose level it reaches, provided that it
reaches the level of the whole log.  Without any output, warnings and what is worse go to the error
stream, field by field.
-/

namespace ModelAssist.Log

/-- The level of an output: its own, or else that of the whole log. -/
def levelOf (settings : LoggingSettings) (output : LogOutput) : LogLevel :=
  output.level.getD settings.level

/-- A record in the layout of an output. -/
def line (format : LogFormat) (time : String) (record : LogRecord) : String :=
  match format with
  | .json => record.jsonLine time
  | .console => record.consoleLine time

/-- Holds if a record weighs at least as much as a level. -/
def reaches (record : LogRecord) (level : LogLevel) : Bool :=
  level.weight ≤ record.level.weight

/-- The lines that a record at some time becomes, each with its destination. -/
def lines (settings : LoggingSettings) (time : String) (record : LogRecord) :
    List (String × String) :=
  if !reaches record settings.level then []
  else if settings.outputs.isEmpty then
    if reaches record .warning then [(errorStream, record.plainLine time)] else []
  else
    (settings.outputs.filter fun output => reaches record (levelOf settings output)).map
      fun output => (output.destination, line output.format time record)

/-- The first file among the outputs, to which users are pointed. -/
def file? (settings : LoggingSettings) : Option Path :=
  (settings.outputs.find? (·.destination ≠ errorStream)).map (Path.ofText ·.destination)

/-- The files among the outputs, as they are opened. -/
def files [Host] (settings : LoggingSettings) : List Path :=
  (settings.outputs.filter (·.destination ≠ errorStream)).map (Path.normalized ·.destination)

/-! ## Opening a log -/

/-- Why a file of a log cannot be opened. -/
inductive OpenFault where
  | file (fault : FileFault)
  /-- Its path holds the character that ends paths. -/
  | nul
deriving DecidableEq, Repr

/-- What is said about a file of a log that cannot be opened. -/
def OpenFault.message : OpenFault → String
  | .file fault => fault.message
  | .nul => "embedded null byte"

/-- A step of opening a log.  What was made before something goes wrong stays. -/
abbrev Opening := ExceptT OpenFault (StateM FileStore)

/-- Changes the files, unless that fails. -/
def change (act : FileStore → Except FileFault FileStore) : Opening Unit := fun files =>
  match act files with
  | .ok files => (.ok (), files)
  | .error fault => (.error (.file fault), files)

variable [Host]

/-- The directories on the way down to a path, with the dots in them resolved. -/
def directoriesAbove (path : Path) : List Path :=
  (List.range path.parts.length).map fun count =>
    Path.normalize ⟨path.anchor, path.parts.take count⟩

/-- Opens a file of a log after the directories above it were made. -/
def openFile (destination : String) : Opening Unit := do
  if destination.contains '\x00' then throw .nul
  (directoriesAbove (Path.ofText destination)).forM fun directory =>
    change (·.makeDirectories directory)
  change (·.openAppending (Path.normalized destination))

/-- Opens the files among the outputs, one by one. -/
def openFiles (settings : LoggingSettings) : Opening Unit :=
  (settings.outputs.filter (·.destination ≠ errorStream)).forM fun output =>
    openFile output.destination

end ModelAssist.Log
