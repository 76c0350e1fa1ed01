import ModelAssist.Config.FlatName
import ModelAssist.Config.Variable
import ModelAssist.Data.Yaml.Reader
import ModelAssist.FileStore

/-!
# Loading settings

The settings of a user come from several sources.  From the strongest to the weakest: what is handed
over directly, the sections in the environment, the flat names in the environment, the document in
the workspace, the document in the home directory.  What none of them sets has its default.
-/

namespace ModelAssist

/-- Why settings cannot be loaded. -/
inductive LoadFault where
  /-- A document or a setting is not admitted. -/
  | failure (cause : Failure)
  | document (fault : TextFault)
  /-- A scalar of a document is not of its kind. -/
  | scalar (fault : Yaml.YamlFault)
  /-- A flat name has a value beyond all numbers. -/
  | flat (error : FlatError)
  /-- The parts of a document lie too deep inside each other. -/
  | tooDeep
  /-- A variable for a section cannot be taken. -/
  | variable (group : String) (fault : VariableFault)
  /-- A section of a document has a name that is no text. -/
  | nameless
  /-- A home directory cannot be found. -/
  | home (fault : HomeFault)
  /-- A setting that is not admitted cannot be shown. -/
  | unshown (fault : DisplayFault)
deriving Inhabited

namespace LoadFault

/-- What becomes of values under flat names that cannot be used. -/
def ofFlat : FlatError → LoadFault
  | .failure cause => .failure cause
  | error => .flat error

/-- What is said about settings that cannot be loaded. -/
def message : LoadFault → String
  | .failure cause => cause.text
  | .document fault => fault.message
  | .scalar fault => fault.message
  | .flat error => error.message
  | .tooDeep | .variable _ .tooDeep => tooDeepText
  | .variable group .notJson =>
    "error parsing value for field \"" ++ group ++ "\" from source \"EnvSettingsSource\""
  | .nameless => "keywords must be strings"
  | .home fault => fault.message
  | .unshown fault => fault.message

end LoadFault

namespace Settings

variable [Host]

/-- The document of a user, in the home directory. -/
def globalPath : Path :=
  Host.home.join ⟨.working, [".config", "umple-lsp", "config.yaml"]⟩

/-- The name of the document of a workspace. -/
def workspaceName : String := ".umple-lsp.yaml"

/-- The sections of a document; one that does not exist or holds nothing has none. -/
def document (files : FileStore) (path : Path) : Except LoadFault Entries :=
  match files.text path with
  | .error (.file (.missing _)) => .ok []
  | .error fault => .error (.document fault)
  | .ok text =>
    if Host.tooDeep .yaml text then .error .tooDeep
    else match Yaml.read text with
    | .error .malformed => .error (.failure (.badDocument path.text .notWellFormed))
    | .error fault => .error (.scalar fault)
    | .ok (.record entries) => .ok entries
    | .ok value =>
      if value.isTruthy then
        .error (.failure (.badDocument path.text (.unusable "top level must be a mapping")))
      else .ok []

/-- The sections of the documents, those of the workspace laid over those of the user. -/
def documents (files : FileStore) (root : Path) : Except LoadFault Entries := do
  let global ← document files globalPath
  let workspace ← document files (root.child workspaceName)
  .ok (Entries.over global workspace)

/-- The sections of all sources, each laid over the weaker ones; the strongest are laid over each
other first, so that a section that is no record hides the weaker ones only where nothing stronger
is a record there. -/
def merged (files : FileStore) (environment : List (String × String)) (root : Path)
    (overrides : Entries) : Except LoadFault Entries := do
  let documents ← documents files root
  let texts := environment.map fun (name, text) => (Key.text name, Value.text text)
  let flat ← (FlatName.sections (Entries.ofPairs texts) FlatName.environment).mapError .ofFlat
  let grouped ← (Variable.sections environment).mapError fun (group, fault) =>
    .variable group fault
  .ok (Entries.over documents (Entries.over flat (Entries.over grouped overrides)))

/-- Holds of the keys that are texts. -/
def isNamed : Key → Bool
  | .text _ => true
  | .scalar _ => false

/-- The settings that all sources together stand for. -/
def load (files : FileStore) (environment : List (String × String)) (root : Path)
    (overrides : Entries) : Except LoadFault Settings := do
  let sections ← merged files environment root overrides
  if !sections.all fun (key, _) => isNamed key then .error .nameless
  else
    match (read sections false).outcome with
    | .ok settings => .ok settings
    | .error (.home fault) => .error (.home fault)
    | .error (.notAdmitted complaint) =>
      match complaint.given.shown with
      | .ok text => .error (.failure (.badSetting complaint.placeText text complaint.reason))
      | .error fault => .error (.unshown fault)

/-- The sections that the options of an editor stand for. -/
def editorOverrides (options : Value) : Except LoadFault Entries :=
  match options with
  | .record entries => (FlatName.sections entries FlatName.editor).mapError .ofFlat
  | _ => .ok []

end Settings

end ModelAssist
