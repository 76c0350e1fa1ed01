import ModelAssist.CommandLine.Arguments
import ModelAssist.Data.Integer
import ModelAssist.FileStore

/-!
# Requests on the command line

The commands of the program, and what somebody who calls it asks for.
-/

namespace ModelAssist

/-- How editors reach the program. -/
inductive Transport where
  /-- Over the streams of the program. -/
  | streams
  | network (host : String) (port : Int)
deriving DecidableEq, Repr, Inhabited

/-- What is asked for on the command line. -/
inductive CommandRequest where
  | help (shape : CommandShape)
  | version
  /-- Work for an editor. -/
  | serve (transport : Transport)
  /-- The validation of a file, with the given program of the validator. -/
  | check (file : Path) (program : Option Path)
  | symbols (file : Path)
deriving Inhabited

/-- Why a command does nothing: what is wrong with its arguments. -/
structure UsageError where
  shape : CommandShape
  fault : UsageFault
deriving Inhabited

namespace CommandRequest

/-- The command that works for an editor. -/
def serveShape : CommandShape where
  call := "cli serve"
  about := ["Run the Umple language server.",
    "Speaks LSP over stdio unless --tcp is given. Logs always go to stderr."]
  options := [
    { role := .network, name := "tcp", help := "Listen on TCP instead of stdio" },
    { role := .host, name := "host", operand := .text,
      help := "TCP host  [default: 127.0.0.1]" },
    { role := .port, name := "port", operand := .integer, help := "TCP port  [default: 2087]" },
    CommandShape.helpOption]

/-- The command that validates a file. -/
def checkShape : CommandShape where
  call := "cli check"
  operands := ["FILE"]
  about := ["Validate FILE and its imports, printing one line per diagnostic.",
    "Exits with status 1 when any error is reported."]
  options := [
    { role := .validator, name := "jar", operand := .path, help := "Path to umplesync.jar" },
    CommandShape.helpOption]

/-- The command that lists symbols. -/
def symbolsShape : CommandShape where
  call := "cli symbols"
  operands := ["FILE"]
  about := ["Index FILE with everything it imports and print the symbols found."]
  options := [CommandShape.helpOption]

/-- What the help of the program says about a command. -/
def entry (name : String) (shape : CommandShape) : String × String :=
  (name, shape.about.headD "")

/-- The program as a whole. -/
def programShape : CommandShape where
  call := "cli"
  operands := ["COMMAND", "[ARGS]..."]
  about := ["umple-lsp - Language server and command-line checks for Umple models."]
  options := [
    { role := .version, name := "version", help := "Show the version and exit." },
    { role := .verbose, name := "verbose", letter := some 'v', help := "Enable debug logging" },
    CommandShape.helpOption]
  isGroup := true
  commands := [entry "check" checkShape, entry "serve" serveShape, entry "symbols" symbolsShape]

/-- The text of the version of the program. -/
def versionText : String := "umple-lsp, version 0.1.0"

/-- A path that has to lead to a file which can be read. -/
def readFile (files : FileStore) (text : String) : Except UsageFault Path :=
  let path := Path.ofText text
  let fault (what : String) : Except UsageFault Path :=
    .error (.badValue "FILE" ("File " ++ Text.quoted text ++ " " ++ what ++ "."))
  match files.lookup? path with
  | none => fault "does not exist"
  | some .directory => fault "is a directory"
  | some .sealed => fault "is not readable"
  | some _ => .ok path

/-- A path that may lead nowhere, but not to something that cannot be read. -/
def readProgram (files : FileStore) (text : String) : Except UsageFault Path :=
  let path := Path.ofText text
  match files.lookup? path with
  | some .sealed =>
    .error (.badValue "--jar" ("Path " ++ Text.quoted text ++ " is not readable."))
  | _ => .ok path

/-- A port. -/
def readPort (text : String) : Except UsageFault Int :=
  match Numeral.read text with
  | .ok port => .ok port
  | .error _ => .error (.badValue "--port" (Text.quoted text ++ " is not a valid integer."))

/-- Refuses operands that are left over. -/
def refuseLeft (operands : List String) : Except UsageFault Unit :=
  if operands.isEmpty then .ok () else .error (.operandsLeft operands)

/-- The file that a command is about, no other operand being left. -/
def onlyFile (files : FileStore) (arguments : Arguments) : Except UsageFault Path :=
  match arguments.operands with
  | [] => .error (.operandMissing "FILE")
  | text :: rest => do
    let path ← readFile files text
    refuseLeft rest
    return path

/-- What a call that works for an editor asks for. -/
def ofServe (arguments : Arguments) : Except UsageFault CommandRequest := do
  let port ← (arguments.value? .port).elim (.ok 2087) readPort
  refuseLeft arguments.operands
  return .serve <|
    if arguments.has .network then .network ((arguments.value? .host).getD "127.0.0.1") port
    else .streams

/-- What a call that validates a file asks for. -/
def ofCheck (files : FileStore) (arguments : Arguments) : Except UsageFault CommandRequest := do
  let program ← (arguments.value? .validator).mapM (readProgram files)
  let file ← onlyFile files arguments
  return .check file program

/-- What a call that lists symbols asks for. -/
def ofSymbols (files : FileStore) (arguments : Arguments) : Except UsageFault CommandRequest := do
  return .symbols (← onlyFile files arguments)

/-- What the arguments of one command ask for; options that end its work at once come first. -/
def within (shape : CommandShape) (use : Arguments → Except UsageFault CommandRequest)
    (words : List String) : Except UsageError CommandRequest :=
  let request : Except UsageFault CommandRequest := do
    let arguments ← Arguments.read shape words
    match arguments.eager? with
    | some .version => return .version
    | some _ => return .help shape
    | none => use arguments
  request.mapError (⟨shape, ·⟩)

/-- What a command with the given name asks for. -/
def ofCommand (files : FileStore) (name : String) (words : List String) :
    Except UsageError CommandRequest :=
  match name with
  | "serve" => within serveShape ofServe words
  | "check" => within checkShape (ofCheck files) words
  | "symbols" => within symbolsShape (ofSymbols files) words
  | _ =>
    let names := programShape.commands.map (·.1)
    .error ⟨programShape, .unknownCommand name (Text.alike name names)⟩

/-- What the arguments of the program ask for. -/
def ofArguments (files : FileStore) (words : List String) : Except UsageError CommandRequest :=
  if words.isEmpty then .error ⟨programShape, .nothingAsked⟩
  else
    match Arguments.read programShape words with
    | .error fault => .error ⟨programShape, fault⟩
    | .ok arguments =>
      match arguments.eager?, arguments.operands with
      | some .version, _ => .ok .version
      | some _, _ => .ok (.help programShape)
      | none, [] => .error ⟨programShape, .commandMissing⟩
      | none, name :: words => ofCommand files name words

end CommandRequest

end ModelAssist
