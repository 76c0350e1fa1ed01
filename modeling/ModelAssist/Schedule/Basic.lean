import ModelAssist.Data.OrderedMap
import ModelAssist.Diagnostic.Basic
import ModelAssist.Failure

/-!
# Validation schedules

When open documents are validated.  Each edit restarts a quiet period of its document, and the
document is validated when the period ends; a newer validation supersedes an older one.  Documents
that import an edited one are validated after a longer quiet period, which all edits share.

A schedule is a value that events change.  Every change comes with commands: what is to be started,
cancelled or shown.  What was started reports back by further events, under the ticket that the
command gave it.  A result is shown only if its validation was not cancelled and the document is
still at the version that was validated.
-/

namespace ModelAssist

/-- The number of something that a schedule had started. -/
abbrev Ticket := Nat

/-- How a validation ended. -/
inductive ValidationEnd where
  | diagnostics (found : List Diagnostic)
  /-- Because it saw that it was cancelled. -/
  | cancelled
  /-- Because the validator could not be used. -/
  | failed (failure : Failure)
  /-- For another reason. -/
  | broken
  /-- Because its task was interrupted. -/
  | interrupted
deriving Inhabited

/-- What happens to a schedule. -/
inductive ScheduleEvent where
  /-- A document was edited or opened; the quiet period may differ from the usual one. -/
  | schedule (uri : String) (seconds : Option Float)
  /-- The quiet period of a document is over. -/
  | quiet (ticket : Ticket) (uri : String)
  /-- A document changed that others may import. -/
  | scheduleDependents (uri : String)
  /-- The shared quiet period is over. -/
  | dependentsQuiet
  /-- A document is to be validated now. -/
  | start (uri : String)
  | ended (ticket : Ticket) (uri : String) (version : Int) (ending : ValidationEnd)
  | close (uri : String)
  /-- Everything is to stop. -/
  | shutdown
deriving Inhabited

/-- What a schedule wants done. -/
inductive ScheduleCommand where
  /-- A quiet period of a document starts. -/
  | awaitQuiet (ticket : Ticket) (uri : String) (seconds : Float)
  /-- The shared quiet period starts. -/
  | awaitDependentsQuiet (ticket : Ticket) (seconds : Float)
  /-- A validation starts. -/
  | validate (ticket : Ticket) (uri : String) (version : Int)
  /-- The token of a validation is cancelled. -/
  | cancel (ticket : Ticket) (reason : String)
  | interrupt (ticket : Ticket)
  | publish (uri : String) (diagnostics : List Diagnostic) (version : Option Int)
  | warn (message : String)
deriving Inhabited

/-- What a schedule asks about documents. -/
structure Surroundings where
  /-- The version of an open document. -/
  versionOf : String → Option Int
  /-- The open documents that import a document. -/
  dependentsOf : String → List String

/-- The state of a schedule. -/
structure Schedule where
  /-- The usual length of the quiet period of a document. -/
  quietSeconds : Float
  /-- The length of the shared quiet period. -/
  dependentSeconds : Float
  /-- The documents in a quiet period. -/
  pending : OrderedMap String Ticket
  /-- The latest validation of every document that is being validated. -/
  running : OrderedMap String Ticket
  cancelled : List Ticket
  /-- The documents that changed in the shared quiet period. -/
  changed : List String
  /-- The shared quiet period, if there is one. -/
  dependentsTimer : Option Ticket
  /-- The kinds of failures of which the user was told. -/
  warned : List FailureKind
  nextTicket : Ticket

namespace Schedule

/-- A schedule in which nothing is going on. -/
def initial (quietSeconds dependentSeconds : Float) : Schedule :=
  ⟨quietSeconds, dependentSeconds, ∅, ∅, [], [], none, [], 0⟩

/-- Why a validation is cancelled when a newer one starts. -/
def supersededReason : String := "superseded"

/-- The schedule after a document started a quiet period in place of one it was in. -/
def awaitQuiet (schedule : Schedule) (uri : String) (seconds : Option Float) :
    Schedule × List ScheduleCommand :=
  let ticket := schedule.nextTicket
  ({ schedule with
      pending := (schedule.pending.erase uri).insert uri ticket
      nextTicket := ticket + 1 },
    ((schedule.pending.get? uri).toList.map .interrupt) ++
      [.awaitQuiet ticket uri (seconds.getD schedule.quietSeconds)])

/-- The schedule after a validation of an open document started; the running one is superseded. -/
def start (around : Surroundings) (schedule : Schedule) (uri : String) :
    Schedule × List ScheduleCommand :=
  match around.versionOf uri with
  | none => (schedule, [])
  | some version =>
    let previous := (schedule.running.get? uri).toList
    let ticket := schedule.nextTicket
    ({ schedule with
        running := (schedule.running.erase uri).insert uri ticket
        cancelled := schedule.cancelled ++ previous
        nextTicket := ticket + 1 },
      previous.map (.cancel · supersededReason) ++ [.validate ticket uri version])

/-- The schedule after validations of some open documents started, one after another. -/
def startAll (around : Surroundings) (schedule : Schedule) (uris : List String) :
    Schedule × List ScheduleCommand :=
  uris.foldl
    (fun (schedule, commands) uri =>
      let (schedule, further) := schedule.start around uri
      (schedule, commands ++ further))
    (schedule, [])

/-- The schedule after the quiet period of a document; it is forgotten if it is the current one. -/
def leaveQuiet (schedule : Schedule) (ticket : Ticket) (uri : String) : Schedule :=
  if schedule.pending.get? uri = some ticket then
    { schedule with pending := schedule.pending.erase uri }
  else schedule

/-- The schedule after a document was added to the changed ones and the shared period restarted. -/
def awaitDependents (schedule : Schedule) (uri : String) : Schedule × List ScheduleCommand :=
  let ticket := schedule.nextTicket
  ({ schedule with
      changed := if schedule.changed.contains uri then schedule.changed
        else schedule.changed ++ [uri]
      dependentsTimer := some ticket
      nextTicket := ticket + 1 },
    schedule.dependentsTimer.toList.map .interrupt ++
      [.awaitDependentsQuiet ticket schedule.dependentSeconds])

/-- The documents that import one of the changed ones and did not change themselves, in ascending
order. -/
def affected (around : Surroundings) (changed : List String) : List String :=
  let dependents := (changed.flatMap around.dependentsOf).foldl
    (fun kept uri => if kept.contains uri || changed.contains uri then kept else kept ++ [uri]) []
  dependents.mergeSort fun left right => !decide (right < left)

/-- The schedule after the validations that the shared quiet period was waiting for started. -/
def startDependents (around : Surroundings) (schedule : Schedule) :
    Schedule × List ScheduleCommand :=
  startAll around { schedule with changed := [], dependentsTimer := none }
    (affected around schedule.changed)

/-- The schedule after a failure, which the user is told of unless one of its kind was told. -/
def tell (schedule : Schedule) (failure : Failure) : Schedule × List ScheduleCommand :=
  if schedule.warned.contains failure.kind then (schedule, [])
  else
    ({ schedule with warned := schedule.warned ++ [failure.kind] }, [.warn failure.message])

/-- The schedule after a validation ended; only the latest one of a document is remembered. -/
def leaveRunning (schedule : Schedule) (ticket : Ticket) (uri : String) : Schedule :=
  if schedule.running.get? uri = some ticket then
    { schedule with running := schedule.running.erase uri }
  else schedule

/-- The commands that show the diagnostics of a validation, unless it is outdated. -/
def show? (around : Surroundings) (schedule : Schedule) (ticket : Ticket) (uri : String)
    (version : Int) (found : List Diagnostic) : List ScheduleCommand :=
  if schedule.cancelled.contains ticket || around.versionOf uri ≠ some version then []
  else [.publish uri found (some version)]

/-- The schedule after a validation ended. -/
def finish (around : Surroundings) (schedule : Schedule) (ticket : Ticket) (uri : String)
    (version : Int) (ending : ValidationEnd) : Schedule × List ScheduleCommand :=
  let after := schedule.leaveRunning ticket uri
  match ending with
  | .interrupted | .cancelled => (after, [])
  | .diagnostics found => (after, show? around after ticket uri version found)
  | .broken => (after, show? around after ticket uri version [])
  | .failed failure =>
    let (after, warnings) := after.tell failure
    (after, warnings ++ show? around after ticket uri version [])

/-- The schedule after a document was closed: all its work is dropped and its diagnostics are
cleared. -/
def close (schedule : Schedule) (uri : String) : Schedule × List ScheduleCommand :=
  let running := (schedule.running.get? uri).toList
  ({ schedule with
      pending := schedule.pending.erase uri
      running := schedule.running.erase uri
      cancelled := schedule.cancelled ++ running },
    (schedule.pending.get? uri).toList.map .interrupt ++ running.map (.cancel · "closed") ++
      [.publish uri [] none])

/-- The schedule after everything was stopped. -/
def shutdown (schedule : Schedule) : Schedule × List ScheduleCommand :=
  let running := schedule.running.values
  ({ schedule with
      pending := ∅
      running := ∅
      cancelled := schedule.cancelled ++ running
      changed := []
      dependentsTimer := none },
    running.map (.cancel · "shutdown") ++
      (schedule.pending.values ++ running ++ schedule.dependentsTimer.toList).map .interrupt)

/-- The schedule after an event, and what it wants done. -/
def handle (around : Surroundings) (schedule : Schedule) :
    ScheduleEvent → Schedule × List ScheduleCommand
  | .schedule uri seconds => schedule.awaitQuiet uri seconds
  | .quiet ticket uri => (schedule.leaveQuiet ticket uri).start around uri
  | .scheduleDependents uri => schedule.awaitDependents uri
  | .dependentsQuiet => schedule.startDependents around
  | .start uri => schedule.start around uri
  | .ended ticket uri version ending => schedule.finish around ticket uri version ending
  | .close uri => schedule.close uri
  | .shutdown => schedule.shutdown

end Schedule

end ModelAssist
