import ModelAssist.Session.Basic

/-!
# The start of a session

An editor says where it works and hands over its options.  Settings that are not admitted are
replaced by the defaults, and a grammar that cannot be had is done without; the user is warned of
both.  A log that cannot be opened and a grammar that breaks are fatal to the start.
-/

namespace ModelAssist.Session

variable [Host]

/-- What the user is told when there is no grammar. -/
def noGrammarText : String :=
  "Umple grammar not available; completion and go-to-definition are disabled."

/-- The settings for a session in a directory, and what the user is to be warned of. -/
def settingsFor (source : SessionSource) (files : FileStore) (root : Option Path)
    (options : Value) : Except LoadFault (Settings × List String) :=
  let loaded := do
    let overrides ← Settings.editorOverrides options
    Settings.load files source.environment (root.getD Host.workingDirectory) overrides
  match loaded with
  | .ok settings => .ok (settings, [])
  | .error (.failure cause) =>
    .ok (default, ["Invalid umple-lsp configuration: " ++ cause.message])
  | .error fault => .error fault

/-- Why a session cannot be set up. -/
inductive SetUpFault where
  /-- A file of the log cannot be opened. -/
  | log (fault : Log.OpenFault)
  /-- The source of the grammar breaks. -/
  | grammar (message : String)
deriving DecidableEq, Repr

/-- The session that logs by some settings, whose files are open as far as they could be. -/
def logging (settings : Settings) (files : FileStore) (session : Session) : Session :=
  { session with
    bench := session.bench.withFiles files
    settings := { session.settings with logging := settings.logging } }

/-- The session that works by some settings, anew and with the given grammar. -/
def working (settings : Settings) (grammar : Option Grammar) (session : Session) : Session :=
  let workspace := { session.bench.workspace with grammar, index := .empty }
  let surround :=
    { session.bench.surround with launcher := Launcher.initial, launchTasks := [] }
  { session with
    phase := .working
    bench := { session.bench with workspace, surround }
    settings
    dispatch := dispatchFor settings
    withheld := session.withheld ++ (if grammar.isNone then [noGrammarText] else []) }

/-- Sets a session up anew by some settings: the log is opened, and then the grammar is fetched.
Where that fails the session logs by the new settings, but works on as before. -/
def setUp (source : SessionSource) (settings : Settings) (session : Session) :
    Session × Except SetUpFault Unit :=
  let (opened, files) := Log.openFiles settings.logging session.bench.workspace.files
  let session := session.logging settings files
  match opened, Grammar.loadIfAvailable source.supply settings.grammar with
  | .error fault, _ => (session, .error (.log fault))
  | .ok _, .error message => (session, .error (.grammar message))
  | .ok _, .ok grammar => (session.working settings grammar, .ok ())

/-- The session that will warn the user of more. -/
def withhold (warnings : List String) (session : Session) : Session :=
  { session with withheld := session.withheld ++ warnings }

/-- Starts to work in a directory. -/
def start (source : SessionSource) (request : Value) (root : Option Path) (options : Value) :
    SessionAct Unit := do
  match settingsFor source (← part.look).workspace.files root options with
  | .error _ => say (.refused request .internal)
  | .ok (settings, warnings) =>
    match ← Act.step fun session => setUp source settings (session.withhold warnings) with
    | .ok _ => say (.begun request)
    | .error _ => say (.refused request .internal)

end ModelAssist.Session
