import ModelAssist.Config.Load
import ModelAssist.Grammar.Source
import ModelAssist.Log.Output
import ModelAssist.Protocol.Message
import ModelAssist.Schedule.Dispatch
import ModelAssist.Workspace.Validation

/-!
# Sessions

The work for one editor, from its first message to the one that stops it.  A session keeps the
documents of the editor on a workbench, validates them as its schedule says, and collects what the
editor is to be told.
-/

namespace ModelAssist

/-- Where a session takes its settings and its grammar from. -/
structure SessionSource where
  environment : List (String × String)
  supply : GrammarSupply

/-- How far a session has come. -/
inductive SessionPhase where
  /-- The editor has not said yet where to work. -/
  | waiting
  | working
  | stopped
deriving DecidableEq, Repr, Inhabited

/-- The work for one editor. -/
structure Session where
  phase : SessionPhase
  /-- The documents with their index, and the surroundings of the validator. -/
  bench : Workbench
  settings : Settings
  /-- When documents are validated. -/
  dispatch : Dispatch
  /-- What the user is to be warned of as soon as the editor is ready. -/
  withheld : List String
  told : List Protocol.Outgoing

/-- A part of the work of a session. -/
abbrev SessionAct (Output : Type) : Type := ValidationAct Session Output

namespace Session

variable [Host]

/-- The dispatch that some settings ask for. -/
def dispatchFor (settings : Settings) : Dispatch :=
  Dispatch.initial (Schedule.initial settings.validation.debounceSeconds
    settings.validation.dependentDebounceSeconds)

/-- A session of which nothing is known but the files and the surroundings. -/
def initial (files : FileStore) (surround : Surround) : Session where
  phase := .waiting
  bench := Workbench.initial ⟨none, ∅, files, .empty⟩ surround
  settings := default
  dispatch := dispatchFor default
  withheld := []
  told := []

/-- The session after the editor was told something. -/
def tell (session : Session) (message : Protocol.Outgoing) : Session :=
  { session with told := session.told ++ [message] }

/-- A warning with a hint to the log file, if there is one. -/
def warning (session : Session) (text : String) : Protocol.Outgoing :=
  match Log.file? session.settings.logging with
  | some file => .warning (text ++ " (details in " ++ file.text ++ ")")
  | none => .warning text

/-- The workbench of a session. -/
def part : Part Session Workbench := ⟨bench, fun bench session => { session with bench }⟩

/-- The session with another workspace. -/
def withWorkspace (session : Session) (workspace : Workspace) : Session :=
  { session with bench := { session.bench with workspace } }

/-- The session with other open documents. -/
def withDocuments (session : Session) (documents : DocumentStore) : Session :=
  session.withWorkspace { session.bench.workspace with documents }

/-- The open documents. -/
def documents (session : Session) : DocumentStore := session.bench.workspace.documents

/-- The session after the given text of a file was indexed. -/
def index (session : Session) (path : Path) (text : String) : Session :=
  session.withWorkspace (session.bench.workspace.indexFile path.text (some text)).1

/-- An open document with its path, if it has one. -/
def file? (session : Session) (uri : String) : Option (Document × Path) := do
  let document ← session.documents.get? uri
  let path ← document.path
  return (document, path)

/-- The open documents that import the file behind a URI. -/
def dependents (session : Session) (uri : String) : List String :=
  match Uri.path? uri with
  | some path => (session.bench.workspace.dependents path).map (·.uri)
  | none => []

/-- Tells the editor something. -/
def say (message : Protocol.Outgoing) : SessionAct Unit :=
  Act.change (·.tell message)

/-- Warns the user. -/
def warn (text : String) : SessionAct Unit :=
  Act.change fun session => session.tell (session.warning text)

/-- Validates a document; one that is no file has no diagnostics. -/
def validate (uri : String) (token : TokenId) : SessionAct (List Diagnostic) := do
  let session ← Act.look
  match session.file? uri with
  | some (document, path) =>
    Validation.validate part session.settings.validator path document.text (some token)
  | none => return []

/-- What a fault of a validation means for the schedule. -/
def endingOf : ValidationFault → ValidationEnd
  | .failure cause => .failed cause
  | .cancelled _ => .cancelled
  | _ => .broken

/-- Tells the editor of diagnostics, unless it cannot be told of one of them. -/
def publish (uri : String) (found : List Diagnostic) (version : Option Int) : SessionAct Unit :=
  if found.all Protocol.knows then say (.diagnostics uri found version) else pure ()

/-- How a session carries out its schedule. -/
def host : DispatchHost Session (Except ValidationFault ValidatorOutput) ValidationFault where
  get := dispatch
  set := fun dispatch session => { session with dispatch }
  surroundings := fun session => ⟨session.documents.version?, session.dependents⟩
  validate := validate
  ending := endingOf
  publish := publish
  warn := warn

end Session

end ModelAssist
