import ModelAssist.Config.Settings
import ModelAssist.Data.Integer
import ModelAssist.Failure

/-!
# Flat names

Some settings also have a name of their own outside the sections: one by which an editor hands them
over, and one by which the environment does.
-/

namespace ModelAssist

/-- What a setting with a flat name holds. -/
inductive FlatForm where
  | text
  | integer
  /-- Seconds, given as milliseconds. -/
  | milliseconds
deriving DecidableEq, Repr

/-- A flat name and the setting that it stands for. -/
structure FlatName where
  name : String
  /-- The section of the setting. -/
  group : String
  key : String
  /-- What the setting holds. -/
  form : FlatForm
deriving DecidableEq, Repr

namespace FlatName

/-- The names in the environment. -/
def environment : List FlatName := [
  ⟨"UMPLESYNC_JAR_PATH", "validator", "jar_path", .text⟩,
  ⟨"UMPLESYNC_HOST", "validator", "host", .text⟩,
  ⟨"UMPLESYNC_PORT", "validator", "port", .integer⟩,
  ⟨"UMPLESYNC_TIMEOUT_MS", "validator", "timeout_sec", .milliseconds⟩,
  ⟨"UMPLE_TREE_SITTER_LIBRARY", "grammar", "library_path", .text⟩]

/-- The names that editors use. -/
def editor : List FlatName := [
  ⟨"umpleSyncJarPath", "validator", "jar_path", .text⟩,
  ⟨"umpleSyncHost", "validator", "host", .text⟩,
  ⟨"umpleSyncPort", "validator", "port", .integer⟩,
  ⟨"umpleSyncTimeoutMs", "validator", "timeout_sec", .milliseconds⟩,
  ⟨"grammarLibraryPath", "grammar", "library_path", .text⟩]

end FlatName

/-- Why a value under a flat name cannot be used. -/
inductive FlatFault where
  | notInteger (fault : IntegerFault)
  /-- It is larger than all floating-point numbers. -/
  | tooLarge
  | unshown (fault : DisplayFault)
deriving DecidableEq, Repr

/-- The value of a setting whose flat name has the given value. -/
def FlatForm.convert [Host] (form : FlatForm) (given : Value) : Except FlatFault Value :=
  match form with
  | .text => (given.shown.mapError .unshown).map .text
  | .integer => (given.integer.mapError .notInteger).map .int
  | .milliseconds => do
    let count ← given.integer.mapError .notInteger
    let seconds := Number.nearest (count < 0) ⟨count.natAbs, -3⟩
    if seconds.isInf then .error .tooLarge else .ok (.float seconds)

/-- Why values under flat names cannot be used. -/
inductive FlatError where
  /-- One of them is not admitted. -/
  | failure (cause : Failure)
  /-- One of them is beyond all integers. -/
  | infinite
  /-- One of them is beyond all floating-point numbers. -/
  | tooLarge
  /-- One of them cannot be shown where it is to be. -/
  | unshown (fault : DisplayFault)
deriving Inhabited

/-- What is said of values under flat names that cannot be used. -/
def FlatError.message : FlatError → String
  | .failure cause => cause.text
  | .infinite => IntegerFault.message .infinite
  | .tooLarge => "integer division result too large for a float"
  | .unshown fault => fault.message

/-- What becomes of a fault under a flat name; a value is told as it is shown. -/
def FlatFault.report [Host] (name : FlatName) (given : Value) : FlatFault → FlatError
  | .notInteger .infinite => .infinite
  | .notInteger fault =>
    match given.shown with
    | .ok text => .failure (.badSetting name.name text fault.message)
    | .error fault => .unshown fault
  | .tooLarge => .tooLarge
  | .unshown fault => .unshown fault

namespace FlatName

/-- The sections after a setting got a value. -/
def place (sections : Entries) (name : FlatName) (value : Value) : Entries :=
  let entries := match sections.field? name.group with
    | some (.record entries) => entries
    | _ => []
  sections.insert (.text name.group) (.record (Entries.insert entries (.text name.key) value))

/-- The sections that a record of flat names stands for; null and the empty text count as absent. -/
def sections [Host] (values : Entries) (names : List FlatName) : Except FlatError Entries :=
  names.foldlM (fun sections name =>
    match (values.field? name.name).getD .null with
    | .null => .ok sections
    | .text "" => .ok sections
    | given =>
      match name.form.convert given with
      | .ok value => .ok (name.place sections value)
      | .error fault => .error (fault.report name given)) []

end FlatName

end ModelAssist
