import ModelAssist.Concurrency.Cancellation
import ModelAssist.Config.Reading
import ModelAssist.Data.Json.Writer
import ModelAssist.Diagnostic.Output
import ModelAssist.Diagnostic.Record
import ModelAssist.Failure
import ModelAssist.Shadow
import ModelAssist.Validator.Retry
import ModelAssist.Validator.Workbench

/-!
# Validator client

Asks the validator to check a file.  One connection serves one request, within the time that the
settings allow; a validator that does not listen is started.
-/

namespace ModelAssist

/-- Why a validation ended early. -/
inductive ValidationFault where
  /-- The validator could not be used. -/
  | failure (cause : Failure)
  | cancelled (reason : String)
  /-- The home directory in the path of the validator cannot be found. -/
  | home (fault : HomeFault)
  /-- The files for the validator could not be laid out. -/
  | shadow (fault : ShadowFault)
  /-- The records of the validator could not be read. -/
  | payload (fault : PayloadFault)
  /-- One exchange with the validator did not come to its end. -/
  | exchange (fault : NetworkFault)
deriving Inhabited

/-- A part of the work with the validator. -/
abbrev ValidationAct (State Output : Type) : Type :=
  Act State (Except ValidationFault ValidatorOutput) ValidationFault Output

namespace ValidatorClient

variable [Host]

/-- The request to check a file without making anything of it. -/
def checkRequest (file : String) : String :=
  "-generate nothing " ++ Json.writeString file

/-- The program of the validator, if one is set and there. -/
def program (settings : ValidatorSettings) (files : FileStore) :
    Except ValidationFault Path :=
  match settings.jarPath.getD "" with
  | "" => .error (.failure .validatorNotSet)
  | text =>
    match (Path.ofText text).expandHome? with
    | none => .error (.home .unknown)
    | some path =>
      if files.isFile path then .ok path else .error (.failure (.validatorMissing path.text))

/-- The command that starts the validator. -/
def startCommand (settings : ValidatorSettings) (program : Path) : List String :=
  [settings.java, "-jar", program.text, "-server", Number.intText settings.port]

/-- Where the validator listens. -/
def address (settings : ValidatorSettings) : String :=
  settings.host ++ ":" ++ Number.intText settings.port

variable {State : Type} (part : Part State Workbench) (settings : ValidatorSettings)

/-- Ends an exchange for a fault of the connection, if there is one. -/
def refuse : Option NetworkFault → ValidationAct State Unit
  | some fault => Act.fail (.exchange fault)
  | none => return

/-- Writes a request to a connection and reads the answer. -/
def converse (step : ConnectionStep) (request : String) : ValidationAct State ValidatorOutput := do
  part.change (·.record (.sent request))
  refuse step.writeFault
  if step.showsEnd then part.change (·.record .ended)
  Act.sleepSeconds step.replySeconds
  refuse step.readFault
  return ValidatorOutput.split (String.ofList (Text.decodeMarking step.reply))

/-- Closes a connection; what goes wrong with that is passed over. -/
def hangUp (step : ConnectionStep) : ValidationAct State Unit := do
  part.change (·.record .closed)
  match ← Act.attempt (refuse step.closeFault : ValidationAct State Unit) with
  | .ok () | .error (.fault (.exchange _)) => return
  | .error stop => throw stop

/-- Connects, sends a request and closes the connection in any case. -/
def roundTrip (request : String) : ValidationAct State ValidatorOutput := do
  let now ← Act.clock
  let step ← part.step fun bench =>
    let bench := bench.record (.connect (address settings) now bench.workspace.files)
    let (surround, step) := bench.surround.takeConnection
    ({ bench with surround }, step)
  Act.sleepSeconds step.connectSeconds
  refuse step.connectFault
  Act.ensure (converse part step request) (hangUp part step)

/-- A round trip within the time that the settings allow. -/
def exchange (request : String) : ValidationAct State (Except NetworkFault ValidatorOutput) := do
  let span := Span.ofSeconds settings.timeoutSeconds
  match ← Act.attempt (Act.within span (.exchange .deadline) (roundTrip part settings request)) with
  | .ok output => return .ok output
  | .error (.fault (.exchange fault)) => return .error fault
  | .error stop => throw stop

/-- Starts the validator as a launch with a number. -/
def launch (program : Path) (number : LaunchId) : ValidationAct State Unit := do
  let now ← Act.clock
  let step ← part.step fun bench =>
    let bench := bench.record (.started (startCommand settings program) now)
    let (surround, step) := bench.surround.takeStart
    ({ bench with surround }, step)
  Act.sleepSeconds step.seconds
  let outcome := match step.fault with
    | some fault => .error fault.message
    | none => .ok ()
  part.change fun bench => bench.withLauncher (bench.surround.launcher.finish number outcome)

/-- Waits for the end of a launch and learns what became of it. -/
def awaitLaunch (number : LaunchId) : ValidationAct State (Except String Unit) := do
  let surround := (← part.look).surround
  if surround.launcher.stateOf number = .inFlight then
    Act.awaitAny (surround.launchTasks[number]?).toList
  part.step fun bench =>
    let (launcher, learned) := bench.surround.launcher.collect number
    (bench.withLauncher launcher, learned)

/-- Starts the validator unless that was done, or is being done. -/
def ensureStarted (program : Path) : ValidationAct State (Except String Unit) := do
  let step ← part.step fun bench =>
    let (launcher, step) := bench.surround.launcher.request
    (bench.withLauncher launcher, step)
  match step with
  | .ready => return .ok ()
  | .await number => awaitLaunch part number
  | .begin number =>
    let task ← Act.start (Act.run (launch part settings program number))
    part.change fun bench =>
      { bench with surround :=
        { bench.surround with launchTasks := bench.surround.launchTasks ++ [task] } }
    awaitLaunch part number

/-- The failure that a fault of a request amounts to. -/
def failureOf : SendFault → Failure
  | .notStarted reason => .validatorNotStarted settings.java reason
  | .unreachable reason => .validatorUnreachable settings.host settings.port reason
  | .late => .validatorTimeout settings.host settings.port (.float settings.timeoutSeconds)

/-- Sends a request and yields what the validator wrote. -/
def send (program : Path) (request : String) : ValidationAct State ValidatorOutput := do
  let answer ← Retry.send (exchange part settings request) (ensureStarted part settings program)
    (Act.sleepSeconds settings.retryDelaySeconds) settings.connectRetries.toNat
  match answer with
  | .ok output => return output
  | .error fault => Act.fail (.failure (failureOf settings fault))

/-- Has a file checked, until the token is cancelled if there is one. -/
def check (file : String) (token : Option TokenId) : ValidationAct State ValidatorOutput := do
  match program settings (← part.look).workspace.files with
  | .error fault => Act.fail fault
  | .ok program =>
    Act.cancellable .cancelled (send part settings program (checkRequest file)) token

end ValidatorClient

end ModelAssist
