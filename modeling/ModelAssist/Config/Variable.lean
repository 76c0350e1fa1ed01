import ModelAssist.Config.Reading
import ModelAssist.Data.Json.Reader
import ModelAssist.Data.Merge
import ModelAssist.Data.OrderedMap
import ModelAssist.Text.Lowercase

/-!
# Settings in the environment

An environment variable can hold a whole section as JSON, or a single setting of it; the names of
the section and of the setting stand behind a common start, in letters of any case.
-/

namespace ModelAssist

/-- Why a variable cannot be taken. -/
inductive VariableFault where
  /-- It should be JSON and is not. -/
  | notJson
  /-- It may be JSON, but its parts lie too deep inside each other. -/
  | tooDeep
deriving DecidableEq, Repr

namespace Variable

variable [Host]

/-- What the names of all variables start with, in small letters. -/
def nameStart : String := "umple_lsp__"

/-- A text in small letters. -/
def lower (text : String) : String :=
  String.ofList (Text.lower text.toList)

/-- The pieces of a text between double underscores. -/
def pieces (text : String) : List String :=
  go [] text.toList
where
  /-- The pieces of the rest of a text, after the characters of the current one, last one first. -/
  go (current : List Char) : List Char → List String
    | [] => [String.ofList current.reverse]
    | '_' :: '_' :: rest => String.ofList current.reverse :: go [] rest
    | char :: rest => go (char :: current) rest

/-- How the text of a variable is taken. -/
inductive Form where
  | verbatim
  /-- As JSON if it is that, or else as it is. -/
  | maybeJson
  | json
deriving DecidableEq, Repr

/-- How the setting that a section and some keys lead to is taken. -/
def formOf (group : String) (keys : List String) : Form :=
  match group, keys with
  | "logging", ["outputs"] => .json
  | "logging", ["outputs", "level"] => .maybeJson
  | "grammar", ["library_path"] => .maybeJson
  | "validator", ["jar_path"] => .maybeJson
  | _, _ => .verbatim

/-- The value that a text writes as JSON. -/
def ofJson (text : String) : Except VariableFault Value :=
  if Host.tooDeep .json text.toList then .error .tooDeep
  else (Json.read text.toList).mapError fun _ => .notJson

/-- The value of a variable. -/
def valueOf (form : Form) (text : String) : Except VariableFault Value :=
  if text = "" then .ok (.text text)
  else
    match form, ofJson text with
    | .verbatim, _ | .maybeJson, .error .notJson => .ok (.text text)
    | _, read => read

/-- The entries after the keys on the way to a value were made; a value that stands in the way and
is no record stays. -/
def placeAt (entries : Entries) (value : Value) : List String → Entries
  | [] => entries
  | [key] => entries.insert (.text key) value
  | key :: rest =>
    match entries.field? key with
    | none => entries.insert (.text key) (.record (placeAt [] value rest))
    | some (.record inner) => entries.insert (.text key) (.record (placeAt inner value rest))
    | some _ => entries

/-- The variables under small names; of two with one name the later one counts, in the place of the
earlier one. -/
def normalized (environment : List (String × String)) : List (String × String) :=
  environment.foldl
    (fun normal (name, text) => OrderedMap.put (lower name) text normal) []

/-- The settings of one section that variables of their own hold. -/
def singles (environment : List (String × String)) (group : String) :
    Except VariableFault Entries :=
  let start := nameStart ++ group ++ "__"
  environment.foldlM (fun entries (name, text) =>
    if start.toList.isPrefixOf name.toList then
      let keys := pieces (String.ofList (name.toList.drop start.length))
      (valueOf (formOf group keys) text).map fun value => placeAt entries value keys
    else .ok entries) []

/-- The key of a section that a name stands for whatever the case of its letters. -/
def keyOf (keys : List String) : Key → Key
  | .text name =>
    .text ((keys.find? fun key => lower key = lower name).getD name)
  | key => key

/-- The keys of a section. -/
def keysOf : String → List String
  | "logging" => ["level", "outputs"]
  | "grammar" => ["module", "library_path", "symbol"]
  | "validator" =>
    ["jar_path", "host", "port", "timeout_sec", "java", "connect_retries", "retry_delay_sec"]
  | _ => ["debounce_sec", "dependent_debounce_sec"]

/-- A section with the proper names of its keys. -/
def withProperKeys (group : String) : Value → Value
  | .record entries =>
    .record (Entries.ofPairs (entries.map fun (key, value) => (keyOf (keysOf group) key, value)))
  | value => value

/-- A section as the environment has it, null if it has nothing of it. -/
def sectionOf (environment : List (String × String)) (group : String) :
    Except VariableFault Value :=
  match OrderedMap.lookup (nameStart ++ group) environment with
  | none =>
    (singles environment group).map fun entries =>
      if entries.isEmpty then .null else .record entries
  | some text =>
    match ofJson text with
    | .ok (.record entries) =>
      (singles environment group).map fun upper => .record (Entries.over entries upper)
    | read => read

/-- The sections that the environment has, or the name of the section at fault. -/
def sections (environment : List (String × String)) : Except (String × VariableFault) Entries :=
  Settings.sectionNames.foldlM (fun found group =>
    match sectionOf (normalized environment) group with
    | .error fault => .error (group, fault)
    | .ok .null => .ok found
    | .ok value => .ok (found.insert (.text group) (withProperKeys group value))) []

end Variable

end ModelAssist
