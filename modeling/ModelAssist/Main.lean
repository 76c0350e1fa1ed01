import ModelAssist.CommandLine.Run
import ModelAssist.Config.FlatName
import ModelAssist.Config.Variable
import ModelAssist.Data.Json.Reader
import ModelAssist.Proofs.Path
import ModelAssist.Session.Handling

/-!
# The program

Gathers the files below the current directory and the variables of the environment, and does what
the arguments ask for.  Here no grammar can be had and nobody listens where the validator should, so
that lookups find nothing and validations end with a failure.
-/

namespace ModelAssist.Program

/-- The agenda of a session. -/
abbrev SessionAgenda := Agenda Session (Except ValidationFault ValidatorOutput)

/-- What is found by a program that runs in a directory and whose user has a home; the homes of
others are not looked up. -/
@[reducible] def hostIn (directory home : String) : Host where
  workingDirectory := ⟨.root, (Path.ofText directory).parts⟩
  home := Path.ofText home
  homeOf? := fun _ => none
  tooDeep := fun _ _ => false
  absolute := Anchor.noConfusion
  plain := Path.isPlain_ofText directory

variable [Host]

/-- The deepest nesting of directories that are gathered. -/
def depthLimit : Nat := 12

/-- Holds of the names of files that the program may need. -/
def isWanted (name : String) : Bool :=
  Path.suffixOf name = modelSuffix || name = Settings.workspaceName

/-- The store with the wanted files of a directory and of those below it, each under its absolute
path and under the one from the current directory. -/
def gather (files : FileStore) (parts : List String) (entries : Array IO.FS.DirEntry) :
    Nat → IO FileStore
  | 0 => return files
  | depth + 1 =>
    entries.foldlM
      (fun files entry => do
        let parts := parts ++ [entry.fileName]
        match (← entry.path.metadata).type with
        | .dir =>
          if entry.fileName.toList.head? = some '.' then return files
          else gather files parts (← entry.path.readDir) depth
        | .file =>
          if isWanted entry.fileName then
            let content := FileEntry.file (← IO.FS.readBinFile entry.path).toList
            return (files.put (Host.workingDirectory.join ⟨.working, parts⟩) content).put
              ⟨.working, parts⟩ content
          else return files
        | _ => return files)
      files

/-- The names of the variables that settings can be set by. -/
def variableNames : List String :=
  FlatName.environment.map (·.name) ++ Settings.sectionNames.flatMap fun group =>
    let start := Variable.nameStart ++ group.toUpper
    start :: (Variable.keysOf group).map fun key => start ++ "__" ++ key.toUpper

/-- The variables that settings can be set by, with their values. -/
def environment : IO (List (String × String)) :=
  variableNames.filterMapM fun name => do
    return (← IO.getEnv name).map (name, ·)

/-- What is there when no grammar can be had. -/
def supply : GrammarSupply where
  module := fun name => .error (.unavailable (Grammar.missingModule name))
  library := fun path _ => .error (.unavailable (Grammar.missingLibrary path))
  query := fun text => .ok (Tree.Query.ofText text)
  addition := fun _ => ""

/-- Reads header lines up to the empty one, and yields the count of bytes that they give. -/
partial def readHeaders (input : IO.FS.Stream) (length : Option Nat) : IO (Option Nat) := do
  let line ← input.getLine
  if line.isEmpty then return none
  else if Protocol.endsHeaders line then return some (length.getD 0)
  else readHeaders input ((Protocol.lengthIn? line).orElse fun _ => length)

/-- Reads as many bytes as asked for, or what is left of them. -/
partial def readBytes (input : IO.FS.Stream) (count : Nat) (read : ByteArray) : IO ByteArray := do
  if read.size < count then
    let more ← input.read (count - read.size).toUSize
    if more.isEmpty then return read else readBytes input count (read ++ more)
  else return read

/-- Reads a message; nothing is left at the end of the stream. -/
def readMessage (input : IO.FS.Stream) : IO (Option Protocol.Incoming) := do
  let some length ← readHeaders input none | return none
  let bytes ← readBytes input length ByteArray.empty
  match Json.read (Text.decodeMarking bytes.toList) with
  | .ok message => return some (Protocol.Incoming.ofValue Value.asText message)
  | .error _ => return some .other

/-- Writes what the editor is to be told. -/
def release (output : IO.FS.Stream) (agenda : SessionAgenda) : IO SessionAgenda := do
  agenda.state.told.forM fun message => output.putStr (Protocol.frame message.toValue)
  output.flush
  return { agenda with state := { agenda.state with told := [] } }

/-- Works for an editor: every moment what is due is done, until the messages end. -/
partial def work (source : SessionSource) (input output : IO.FS.Stream) (time : Nat)
    (message : Task (Except IO.Error (Option Protocol.Incoming))) (agenda : SessionAgenda) :
    IO Unit := do
  let now ← IO.monoNanosNow
  let agenda ← release output (agenda.advance (now - time))
  if !(← IO.hasFinished message) then
    IO.sleep 20
    work source input output now message agenda
  else if let .ok (some incoming) := message.get then
    let agenda := (agenda.start (Act.run (Session.handle source incoming))).settle
    work source input output now (← IO.asTask (readMessage input)) (← release output agenda)

/-- Works for an editor over the streams of the program. -/
def serve (source : SessionSource) (files : FileStore) : IO Unit := do
  let input ← IO.getStdin
  let agenda : SessionAgenda := Agenda.initial (Session.initial files (Surround.initial [] []))
  work source input (← IO.getStdout) (← IO.monoNanosNow) (← IO.asTask (readMessage input)) agenda

/-- Prints an output and yields its status. -/
def print (output : CommandOutput) : IO UInt32 := do
  let errors ← IO.getStderr
  output.complaints.forM fun line => errors.putStrLn line
  output.printed.forM fun line => IO.println line
  return output.status.toUInt32

/-- What is said about a run that ends without an output. -/
def faultText : CommandFault → String
  | .settings fault => fault.message
  | .text fault => fault.message
  | .grammar message => message
  | .validation _ => "The validation ended early."

/-- Does what the arguments ask for, and yields the status at the end. -/
def run (words : List String) : IO UInt32 := do
  let files ← gather (FileStore.initial .allowed) [] (← (← IO.currentDir).readDir) depthLimit
  let source : SessionSource := ⟨← environment, supply⟩
  let bench := (Session.initial files (Surround.initial [] [])).bench
  match (CommandRequest.runArguments source bench words).1 with
  | .finished output => print output
  | .serving .streams => do
    serve source files
    return 0
  | .serving (.network ..) => print (.ofFailure "No network can be had.")
  | .broken fault => print (.ofFailure (faultText fault))

end ModelAssist.Program

/-- Runs the program. -/
def main (arguments : List String) : IO UInt32 := do
  let directory ← IO.currentDir
  let home := (← IO.getEnv "HOME").getD "/"
  letI := ModelAssist.Program.hostIn directory.toString home
  ModelAssist.Program.run arguments
