import ModelAssist.Session.Start
import ModelAssist.Workspace.Completion
import ModelAssist.Workspace.Definition

/-!
# Messages in a session

What a session does when a message comes in.  The documents are kept in step with the editor, every
edit asks for validations, and questions are answered from the live text.  A session that was
stopped ignores everything.
-/

namespace ModelAssist.Session

variable [Host]

/-- Lets the schedule handle an event. -/
def plan (event : ScheduleEvent) : SessionAct Unit :=
  Dispatch.handle host event

/-- Shows the warnings that were withheld until the editor was ready. -/
def release : List String → SessionAct Unit
  | [] => Act.change fun session => { session with withheld := [] }
  | text :: rest => do
    warn text
    release rest

/-- The session after a document was opened; models are indexed. -/
def afterOpening (uri text : String) (version : Int) (session : Session) : Session :=
  let session := session.withDocuments (session.documents.openDocument uri text version)
  match session.file? uri with
  | some (_, path) => if path.suffix = modelSuffix then session.index path text else session
  | none => session

/-- The session after the text of a document was replaced; files are indexed. -/
def afterEditing (uri text : String) (version : Int) (session : Session) : Session :=
  let session := session.withDocuments (session.documents.update uri text version)
  match session.file? uri with
  | some (_, path) => session.index path text
  | none => session

/-- Changes the text of an open document. -/
def edit (uri : String) (changes : List TextChange) (version : Int) : SessionAct Unit := do
  match (← Act.look).documents.get? uri with
  | none => return
  | some document =>
    let text := changes.foldl (fun text change => change.apply text) document.text
    Act.change (afterEditing uri text version)
    plan (.schedule uri none)
    plan (.scheduleDependents uri)

/-- Closes a document; those that import its file are validated again. -/
def close (uri : String) : SessionAct Unit := do
  let closed := (← Act.look).documents.get? uri
  Act.change fun session => session.withDocuments (session.documents.close uri)
  plan (.close uri)
  if let some path := closed.bind (·.path) then
    Act.change fun session =>
      session.withWorkspace (session.bench.workspace.documentClosed path)
    plan (.scheduleDependents uri)

/-- The items for a position of a document; a document that is no file has none. -/
def items (uri : String) (position : Position) (session : Session) :
    Session × List CompletionItem :=
  match session.file? uri with
  | none => (session, [])
  | some (document, path) =>
    let (workspace, items) := session.bench.workspace.completions path document.text
      position.line position.column
    (session.withWorkspace workspace, items)

/-- The place of a symbol. -/
def locationOf (symbol : SymbolEntry) : Except Uri.Fault Protocol.Location := do
  return ⟨← Uri.ofPath symbol.file, symbol.start, symbol.stop⟩

/-- The start of a file. -/
def locationOfFile (file : Path) : Except Uri.Fault Protocol.Location := do
  return ⟨← Uri.ofPath file.text, ⟨0, 0⟩, ⟨0, 0⟩⟩

/-- The places that the identifier at a position stands for: the file of a `use` path, or else the
definitions. -/
def locations (uri : String) (position : Position) (session : Session) :
    Session × Except Uri.Fault (List Protocol.Location) :=
  match session.file? uri with
  | none => (session, .ok [])
  | some (document, path) =>
    let workspace := session.bench.workspace
    match workspace.usedFile? path document.text position.line position.column with
    | some file => (session, (locationOfFile file).map fun place => [place])
    | none =>
      let (workspace, symbols) :=
        workspace.definitions path document.text position.line position.column
      (session.withWorkspace workspace, symbols.mapM locationOf)

/-- Answers where the identifier at a position is defined; a place without a URI cannot be told. -/
def answerLocations (request : Value) (uri : String) (position : Position) : SessionAct Unit := do
  match ← Act.step (locations uri position) with
  | .ok places => say (.locations request places)
  | .error _ => say (.refused request .internal)

/-- Does what a message about a document asks for. -/
def handleDocument : Protocol.Incoming → SessionAct Unit
  | .opened uri text version => do
    Act.change (afterOpening uri text version)
    plan (.schedule uri none)
  | .changed uri changes version => edit uri changes version
  | .closed uri => close uri
  | _ => return

/-- Does what a message asks for. -/
def handleLive (source : SessionSource) : Protocol.Incoming → SessionAct Unit
  | .begin request root options => start source request root options
  | .ready => do release (← Act.look).withheld
  | .shutdown request => do
    Dispatch.shutdown host
    Act.change fun session => { session with phase := .stopped }
    say (.stopped request)
  | .completion request uri position => do
    say (.items request (← Act.step (items uri position)) position)
  | .definition request uri position => answerLocations request uri position
  | .refused request refusal => say (.refused request refusal)
  | message => do if (← Act.look).phase = .working then handleDocument message

/-- Handles a message. -/
def handle (source : SessionSource) (message : Protocol.Incoming) : SessionAct Unit := do
  if (← Act.look).phase ≠ .stopped then handleLive source message

end ModelAssist.Session
