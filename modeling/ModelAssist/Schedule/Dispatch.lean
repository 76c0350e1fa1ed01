import ModelAssist.Concurrency.Cancellation
import ModelAssist.Concurrency.Span
import ModelAssist.Schedule.Basic

/-!
# Dispatch

How the commands of a schedule are carried out by tasks.  A quiet period is a task that sleeps and
then reports its end, and a validation is a task with a token that reports what came of it.  The end
of a validation asks for no further work, and the end of a quiet period for validations only.
-/

namespace ModelAssist

/-- The task behind a ticket, and the token of a validation. -/
structure Worker where
  ticket : Ticket
  task : TaskId
  token : Option TokenId
deriving DecidableEq, Repr, Inhabited

/-- A schedule with the tasks that work for it. -/
structure Dispatch where
  schedule : Schedule
  workers : List Worker

/-- What a state must offer for a schedule in it to be carried out. -/
structure DispatchHost (State Result Fault : Type) where
  get : State → Dispatch
  /-- The state with another schedule. -/
  set : Dispatch → State → State
  /-- What the schedule may ask. -/
  surroundings : State → Surroundings
  /-- Validates a document until the token is cancelled. -/
  validate : String → TokenId → Act State Result Fault (List Diagnostic)
  /-- What a fault of a validation means for the schedule. -/
  ending : Fault → ValidationEnd
  publish : String → List Diagnostic → Option Int → Act State Result Fault Unit
  warn : String → Act State Result Fault Unit

namespace Dispatch

/-- A schedule for which nothing works. -/
def initial (schedule : Schedule) : Dispatch := ⟨schedule, []⟩

/-- The worker with a ticket. -/
def worker? (dispatch : Dispatch) (ticket : Ticket) : Option Worker :=
  dispatch.workers.find? (·.ticket = ticket)

variable {State Result Fault : Type} (host : DispatchHost State Result Fault)

/-- Changes the schedule by an event and yields the commands. -/
def decide (event : ScheduleEvent) : Act State Result Fault (List ScheduleCommand) :=
  Act.step fun state =>
    let dispatch := host.get state
    let (schedule, commands) := dispatch.schedule.handle (host.surroundings state) event
    (host.set { dispatch with schedule } state, commands)

/-- Remembers a worker. -/
def employ (worker : Worker) : Act State Result Fault Unit :=
  Act.change fun state =>
    let dispatch := host.get state
    host.set { dispatch with workers := dispatch.workers ++ [worker] } state

/-- The worker with a ticket. -/
def lookUp (ticket : Ticket) : Act State Result Fault (Option Worker) := do
  return (host.get (← Act.look)).worker? ticket

/-- Carries out a command, where `spawn` starts what is to be started. -/
def perform (spawn : ScheduleCommand → Act State Result Fault Unit) :
    ScheduleCommand → Act State Result Fault Unit
  | .publish uri found version => host.publish uri found version
  | .warn message => host.warn message
  | .cancel ticket reason => do
    if let some { token := some token, .. } := ← lookUp host ticket then Act.cancel token reason
  | .interrupt ticket => do
    if let some worker := ← lookUp host ticket then Act.interrupt worker.task
  | command => spawn command

/-- Carries out some commands in order. -/
def performAll (spawn : ScheduleCommand → Act State Result Fault Unit) :
    List ScheduleCommand → Act State Result Fault Unit
  | [] => pure ()
  | command :: rest => do
    perform host spawn command
    performAll spawn rest

/-- Lets the schedule handle an event and carries out its commands. -/
def handleWith (spawn : ScheduleCommand → Act State Result Fault Unit) (event : ScheduleEvent) :
    Act State Result Fault Unit := do
  performAll host spawn (← decide host event)

/-- What a validation came to. -/
def endingOf (ended : Except (Stop Fault) (List Diagnostic)) : ValidationEnd :=
  match ended with
  | .ok found => .diagnostics found
  | .error .interrupted => .interrupted
  | .error (.fault fault) => host.ending fault

/-- Validates a document and reports what came of it. -/
def validation (ticket : Ticket) (uri : String) (version : Int) (token : TokenId) :
    Act State Result Fault Unit := do
  let ended ← Act.attempt (host.validate uri token)
  handleWith host (fun _ => pure ()) (.ended ticket uri version (endingOf host ended))

/-- Starts a validation. -/
def spawnValidation : ScheduleCommand → Act State Result Fault Unit
  | .validate ticket uri version => do
    let token ← Act.makeToken
    let task ← Act.start (Act.run (validation host ticket uri version token))
    employ host ⟨ticket, task, some token⟩
  | _ => pure ()

/-- Starts a quiet period that ends with an event. -/
def spawnQuiet (ticket : Ticket) (seconds : Float) (event : ScheduleEvent) :
    Act State Result Fault Unit := do
  let task ← Act.start <| Act.run do
    Act.sleepSeconds seconds
    handleWith host (spawnValidation host) event
  employ host ⟨ticket, task, none⟩

/-- Starts whatever a schedule wants started. -/
def spawn : ScheduleCommand → Act State Result Fault Unit
  | .awaitQuiet ticket uri seconds => spawnQuiet host ticket seconds (.quiet ticket uri)
  | .awaitDependentsQuiet ticket seconds => spawnQuiet host ticket seconds .dependentsQuiet
  | command => spawnValidation host command

/-- Lets the schedule handle an event and carries out its commands. -/
def handle (event : ScheduleEvent) : Act State Result Fault Unit :=
  handleWith host (spawn host) event

/-- Waits until some tasks have ended. -/
def awaitAll : List TaskId → Act State Result Fault Unit
  | [] => pure ()
  | task :: rest => do
    Act.awaitAny [task]
    awaitAll rest

/-- Stops everything and waits until the tasks that were stopped have ended. -/
def shutdown : Act State Result Fault Unit := do
  let commands ← decide host .shutdown
  performAll host (fun _ => pure ()) commands
  let dispatch := host.get (← Act.look)
  awaitAll <| commands.filterMap fun
    | .interrupt ticket => (dispatch.worker? ticket).map (·.task)
    | _ => none

end Dispatch

end ModelAssist
