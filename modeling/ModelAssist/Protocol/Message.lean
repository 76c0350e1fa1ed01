import ModelAssist.Data.Json.Writer
import ModelAssist.Document.Change
import ModelAssist.Path.Uri
import ModelAssist.Protocol.Form
import ModelAssist.Text.CodeRange

/-!
# Messages of the protocol

What an editor asks and tells, and what it is answered and told.  A request has a number or a text
by which its answer is known.
-/

namespace ModelAssist.Protocol

variable [Host]

/-- Why a request is not answered. -/
inductive Refusal where
  /-- There are no such requests. -/
  | unknownMethod
  /-- Something went wrong. -/
  | internal
deriving DecidableEq, Repr, Inhabited

/-- The number of a refusal in the protocol. -/
def Refusal.code : Refusal → Int
  | .unknownMethod => -32601
  | .internal => -32603

/-- A message of an editor. -/
inductive Incoming where
  /-- Work is to start in a directory, with the options of the editor. -/
  | begin (request : Value) (root : Option Path) (options : Value)
  /-- The editor is ready to be told something. -/
  | ready
  /-- Work is to stop. -/
  | shutdown (request : Value)
  | opened (uri text : String) (version : Int)
  | changed (uri : String) (changes : List TextChange) (version : Int)
  | closed (uri : String)
  /-- Asks what may stand at a position. -/
  | completion (request : Value) (uri : String) (position : Position)
  /-- Asks where the identifier at a position is defined. -/
  | definition (request : Value) (uri : String) (position : Position)
  /-- Asks for something that is not answered. -/
  | refused (request : Value) (refusal : Refusal)
  /-- Tells of something else. -/
  | other
deriving Inhabited

/-- A place in a file. -/
structure Location where
  uri : String
  start : Position
  stop : Position
deriving DecidableEq, Repr, Inhabited

/-- A message to an editor. -/
inductive Outgoing where
  /-- The answer when work has started. -/
  | begun (request : Value)
  /-- The answer when work has stopped. -/
  | stopped (request : Value)
  | items (request : Value) (offered : List CompletionItem) (position : Position)
  | locations (request : Value) (places : List Location)
  /-- A request is not answered. -/
  | refused (request : Value) (refusal : Refusal)
  /-- The diagnostics of a document, and the version of its text that they are about. -/
  | diagnostics (uri : String) (found : List Diagnostic) (version : Option Int)
  | warning (text : String)
deriving Inhabited

/-- The first path that some URIs stand for, if there is one. -/
def firstPath? : List String → Except Uri.Refusal (Option Path)
  | [] => .ok none
  | uri :: rest => do
    match ← Uri.read uri with
    | some path => return some path
    | none => firstPath? rest

/-- The directory in which work is to start: that of the first workspace folder which has a path, or
else that of the root. -/
def rootOf? (params : Value) : Except Uri.Refusal (Option Path) := do
  let root := params.text? "rootUri"
  if let some refusal := root.bind Uri.refusal? then throw refusal
  let folders := (params.listAt "workspaceFolders").map fun folder => (folder.get "uri").asText
  match ← firstPath? folders with
  | some path => return some path
  | none => return root.bind Uri.path?

/-- A position in a message. -/
def positionOf (value : Value) : Position :=
  ⟨value.nat "line", value.nat "character"⟩

/-- A change in a message; `textOf` gives the text of a value. -/
def changeOf (textOf : Value → String) (value : Value) : TextChange where
  range := (value.given? "range").map fun range =>
    (positionOf (range.get "start"), positionOf (range.get "end"))
  text := textOf (value.get "text")

/-- The message that a record stands for; `textOf` gives the texts of documents and changes.  A
document whose URI cannot be read is neither opened nor changed, and work does not start in a
directory with such a URI. -/
def Incoming.ofValue (textOf : Value → String) (message : Value) : Incoming :=
  let request := message.get "id"
  let params := message.get "params"
  let document := params.get "textDocument"
  let uri := (document.get "uri").asText
  let version := (document.get "version").asInt
  let position := positionOf (params.get "position")
  let readable := (Uri.refusal? uri).isNone
  match (message.get "method").asText with
  | "initialize" =>
    match rootOf? params with
    | .ok root => .begin request root (params.get "initializationOptions")
    | .error _ => .refused request .internal
  | "initialized" => .ready
  | "shutdown" => .shutdown request
  | "textDocument/didOpen" =>
    if readable then .opened uri (textOf (document.get "text")) version else .other
  | "textDocument/didChange" =>
    if readable then .changed uri ((params.listAt "contentChanges").map (changeOf textOf)) version
    else .other
  | "textDocument/didClose" => .closed uri
  | "textDocument/completion" => .completion request uri position
  | "textDocument/definition" => .definition request uri position
  | _ => if message.has "id" then .refused request .unknownMethod else .other

/-- What an editor is told about the program and its abilities: documents are kept in step by their
changes, and completion starts by itself behind some characters. -/
def abilities : Value :=
  .ofFields [
    ("serverInfo", .ofFields [("name", .text "umple-lsp"), ("version", .text "0.1.0")]),
    ("capabilities", .ofFields [
      ("textDocumentSync",
        .ofFields [("openClose", .bool true), ("change", .ofNat 2), ("save", .bool false)]),
      ("completionProvider",
        .ofFields [("triggerCharacters", .ofTexts [".", "/", "-", ">", "<"])]),
      ("definitionProvider", .bool true)])]

/-- An answer to a request. -/
def answer (request result : Value) : Value :=
  .ofFields [("id", request), ("result", result)]

/-- A message that asks for no answer. -/
def notice (method : String) (params : Value) : Value :=
  .ofFields [("method", .text method), ("params", params)]

/-- A message as a record. -/
def Outgoing.toValue : Outgoing → Value
  | .begun request => answer request abilities
  | .stopped request => answer request .null
  | .items request offered position =>
    answer request <| .ofFields [("isIncomplete", .bool false),
      ("items", .list (offered.map (item · position)))]
  | .locations request places =>
    answer request <| .list <| places.map fun place =>
      location place.uri place.start place.stop
  | .refused request refusal => .ofFields [("id", request), ("error", .int refusal.code)]
  | .diagnostics uri found version =>
    notice "textDocument/publishDiagnostics" <| record [("uri", some (.text uri)),
      ("diagnostics", some (.list (found.map diagnostic))), ("version", version.map .int)]
  | .warning text =>
    notice "window/showMessage" <| .ofFields [("type", .ofNat 2), ("message", .text text)]

/-! ## Frames

How messages follow each other in a stream: each one is JSON behind some header lines, one of which
gives the count of its bytes.  An empty line ends the headers. -/

/-- A message as it stands in a stream; the JSON holds ASCII characters only. -/
def frame (message : Value) : String :=
  let body := Json.write message
  "Content-Length: " ++ Number.intText body.length ++ "\r\n\r\n" ++ body

/-- The count of bytes that a header line gives. -/
def lengthIn? (header : String) : Option Nat :=
  let name := header.toList.takeWhile (· ≠ ':')
  if (String.ofList name).toLower = "content-length" then
    (String.ofList (Text.trim (header.toList.drop (name.length + 1)))).toNat?
  else none

/-- Holds of the line that ends the headers. -/
def endsHeaders (line : String) : Bool :=
  (Text.trim line.toList).isEmpty

end ModelAssist.Protocol
