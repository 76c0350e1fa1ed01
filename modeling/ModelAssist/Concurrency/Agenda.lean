import ModelAssist.Concurrency.Process

/-!
# Agendas

Tasks take turns: first come, first served, and one at a time.  A turn of a task lasts until its
process waits or ends.  Only when no turn is left does the clock move on, to the next moment for
which something is due.  A task that waits for others learns of their end in a turn before its own,
and the same holds for a task that sleeps.
-/

namespace ModelAssist

/-- What a task is about to do. -/
inductive TaskStatus (State Result : Type) where
  /-- It has a turn in the queue, and may have been interrupted since. -/
  | queued (next : Wake → Process State Result) (isInterrupted : Bool)
  /-- It is in a wait with the given number. -/
  | waiting (next : Wake → Process State Result) (wait : Nat)
  | ended (result : Option Result)

/-- A task. -/
structure TaskEntry (State Result : Type) where
  /-- What it is about to do. -/
  status : TaskStatus State Result
  /-- The tasks that wait for its end, each with the number of its wait. -/
  watchers : List (TaskId × Nat)

/-- A turn in the queue. -/
inductive Turn where
  | task (task : TaskId)
  /-- The wait of a task is over, unless it has left that wait. -/
  | wake (task : TaskId) (wait : Nat)
  | cancel (token : TokenId) (reason : String)
  | deadline (deadline : DeadlineId)
deriving DecidableEq, Repr, Inhabited

/-- A turn that is due at some moment. -/
structure Alarm where
  due : Moment
  turn : Turn
deriving DecidableEq, Repr, Inhabited

/-- A cancellation token. -/
structure Token where
  /-- The reason for which it was cancelled, if it was. -/
  reason : Option String
  /-- The tasks that wait for its cancellation, each with the number of its wait. -/
  watchers : List (TaskId × Nat)
deriving DecidableEq, Repr, Inhabited

/-- A deadline of a task. -/
structure Deadline where
  owner : TaskId
  /-- Set while it is neither passed nor cleared. -/
  isSet : Bool
  /-- Set when it has passed. -/
  isPassed : Bool
deriving DecidableEq, Repr, Inhabited

/-- All tasks with their shared state. -/
structure Agenda (State Result : Type) where
  state : State
  now : Moment
  /-- The tasks by number. -/
  tasks : Array (TaskEntry State Result)
  /-- The turns in the queue, the next one first. -/
  queue : List Turn
  /-- The turns that are due later, in the order in which they were set. -/
  alarms : List Alarm
  /-- The tokens by number. -/
  tokens : Array Token
  /-- The deadlines by number. -/
  deadlines : Array Deadline
  nextWait : Nat

namespace Agenda

variable {State Result : Type}

/-- An agenda without tasks. -/
def initial (state : State) : Agenda State Result :=
  ⟨state, 0, #[], [], [], #[], #[], 0⟩

/-- The agenda with one more turn at the end of the queue. -/
def enqueue (agenda : Agenda State Result) (turn : Turn) : Agenda State Result :=
  { agenda with queue := agenda.queue ++ [turn] }

/-- The agenda after the status of a task changed. -/
def setStatus (agenda : Agenda State Result) (task : TaskId)
    (status : TaskStatus State Result) : Agenda State Result :=
  { agenda with tasks := agenda.tasks.modify task fun old => { old with status } }

/-- The status of a task; a task that does not exist has ended. -/
def statusOf (agenda : Agenda State Result) (task : TaskId) : TaskStatus State Result :=
  match agenda.tasks[task]? with
  | some task => task.status
  | none => .ended none

/-- The agenda after a task was started. -/
def start (agenda : Agenda State Result) (process : Process State Result) :
    Agenda State Result :=
  let first : Wake → Process State Result
    | .resumed => process
    | .interrupted => .finish none
  { agenda with
    tasks := agenda.tasks.push ⟨.queued first false, []⟩
    queue := agenda.queue ++ [.task agenda.tasks.size] }

/-- The agenda without the alarms of a turn. -/
def dropAlarms (agenda : Agenda State Result) (turn : Turn) : Agenda State Result :=
  { agenda with alarms := agenda.alarms.filter (·.turn ≠ turn) }

/-- The agenda after a task was interrupted: a wait is over at once, and a turn in the queue becomes
one of an interrupted task. -/
def interrupt (agenda : Agenda State Result) (task : TaskId) : Agenda State Result :=
  match agenda.statusOf task with
  | .queued next _ => agenda.setStatus task (.queued next true)
  | .waiting next wait =>
    ((agenda.setStatus task (.queued next true)).enqueue (.task task)).dropAlarms (.wake task wait)
  | .ended _ => agenda

/-- The agenda after the wait of a task was over, unless it has left that wait. -/
def wake (agenda : Agenda State Result) (task : TaskId) (wait : Nat) : Agenda State Result :=
  match agenda.statusOf task with
  | .waiting next current =>
    if current = wait then (agenda.setStatus task (.queued next false)).enqueue (.task task)
    else agenda
  | _ => agenda

/-- The reason for which a token was cancelled, if it was. -/
def reasonOf (agenda : Agenda State Result) (token : TokenId) : Option String :=
  agenda.tokens[token]?.bind (·.reason)

/-- The agenda after a token was cancelled; a cancelled token keeps its reason. -/
def cancel (agenda : Agenda State Result) (token : TokenId) (reason : String) :
    Agenda State Result :=
  match agenda.tokens[token]? with
  | some ⟨none, watchers⟩ =>
    let agenda := { agenda with tokens := agenda.tokens.setIfInBounds token ⟨some reason, []⟩ }
    watchers.foldl (fun agenda (task, wait) => agenda.wake task wait) agenda
  | _ => agenda

/-- The agenda after a deadline passed. -/
def passDeadline (agenda : Agenda State Result) (deadline : DeadlineId) : Agenda State Result :=
  match agenda.deadlines[deadline]? with
  | some ⟨owner, true, _⟩ =>
    let deadlines := agenda.deadlines.setIfInBounds deadline ⟨owner, false, true⟩
    { agenda with deadlines }.interrupt owner
  | _ => agenda

/-- The agenda after a task entered a wait. -/
def enterWait (agenda : Agenda State Result) (task : TaskId)
    (next : Wake → Process State Result) : Agenda State Result :=
  { agenda.setStatus task (.waiting next agenda.nextWait) with nextWait := agenda.nextWait + 1 }

/-- The agenda with a turn that is due after some time. -/
def setAlarm (agenda : Agenda State Result) (span : Moment) (turn : Turn) :
    Agenda State Result :=
  { agenda with alarms := agenda.alarms ++ [⟨agenda.now + span, turn⟩] }

/-- The agenda after a wait was told to be woken by the end of a task. -/
def watch (waiter : TaskId) (wait : Nat) (agenda : Agenda State Result) (task : TaskId) :
    Agenda State Result :=
  match agenda.statusOf task with
  | .ended _ => agenda.enqueue (.wake waiter wait)
  | _ =>
    { agenda with
      tasks := agenda.tasks.modify task fun old =>
        { old with watchers := old.watchers ++ [(waiter, wait)] } }

/-- The agenda after a task ended. -/
def finish (agenda : Agenda State Result) (task : TaskId) (result : Option Result) :
    Agenda State Result :=
  let watchers := match agenda.tasks[task]? with
    | some task => task.watchers
    | none => []
  { agenda.setStatus task (.ended result) with
    queue := agenda.queue ++ watchers.map fun (waiter, wait) => .wake waiter wait }

/-- The agenda after a task carried on with a process until this waits or ends. -/
def carryOn (task : TaskId) : Process State Result → Agenda State Result → Agenda State Result
  | .finish result, agenda => agenda.finish task result
  | .look next, agenda => carryOn task (next agenda.state) agenda
  | .change update next, agenda => carryOn task next { agenda with state := update agenda.state }
  | .clock next, agenda => carryOn task (next agenda.now) agenda
  | .pause next, agenda => (agenda.setStatus task (.queued next false)).enqueue (.task task)
  | .sleep span next, agenda =>
    (agenda.enterWait task next).setAlarm span (.wake task agenda.nextWait)
  | .start child next, agenda => carryOn task (next agenda.tasks.size) (agenda.start child)
  | .interrupt other next, agenda => carryOn task next (agenda.interrupt other)
  | .awaitAny tasks next, agenda =>
    tasks.foldl (watch task agenda.nextWait) (agenda.enterWait task next)
  | .ended other next, agenda =>
    match agenda.statusOf other with
    | .ended result => carryOn task (next (some result)) agenda
    | _ => carryOn task (next none) agenda
  | .makeToken next, agenda =>
    carryOn task (next agenda.tokens.size)
      { agenda with tokens := agenda.tokens.push ⟨none, []⟩ }
  | .cancel token reason next, agenda => carryOn task next (agenda.cancel token reason)
  | .cancelAfter span token reason next, agenda =>
    carryOn task next (agenda.setAlarm span (.cancel token reason))
  | .cancelled token next, agenda => carryOn task (next (agenda.reasonOf token)) agenda
  | .awaitCancel token next, agenda =>
    match agenda.tokens[token]? with
    | some ⟨none, watchers⟩ =>
      let agenda := { agenda with
        tokens := agenda.tokens.setIfInBounds token
          ⟨none, watchers ++ [(task, agenda.nextWait)]⟩ }
      agenda.enterWait task next
    | _ => carryOn task (next .resumed) agenda
  | .setDeadline span next, agenda =>
    carryOn task (next agenda.deadlines.size)
      { agenda.setAlarm span (.deadline agenda.deadlines.size) with
        deadlines := agenda.deadlines.push ⟨task, true, false⟩ }
  | .clearDeadline deadline next, agenda =>
    match agenda.deadlines[deadline]? with
    | some ⟨owner, _, isPassed⟩ =>
      carryOn task (next isPassed)
        { agenda.dropAlarms (.deadline deadline) with
          deadlines := agenda.deadlines.setIfInBounds deadline ⟨owner, false, isPassed⟩ }
    | none => carryOn task (next false) agenda

/-- The agenda after a turn. -/
def take (agenda : Agenda State Result) : Turn → Agenda State Result
  | .task task =>
    match agenda.statusOf task with
    | .queued next isInterrupted =>
      carryOn task (next (if isInterrupted then .interrupted else .resumed)) agenda
    | _ => agenda
  | .wake task wait => agenda.wake task wait
  | .cancel token reason => agenda.cancel token reason
  | .deadline deadline => agenda.passDeadline deadline

/-- The earliest moment for which something is due. -/
def nextDue? (agenda : Agenda State Result) : Option Moment :=
  (agenda.alarms.map (·.due)).min?

/-- The agenda at a later moment, with the turns that are due by then in the queue, earliest
first. -/
def moveTo (agenda : Agenda State Result) (moment : Moment) : Agenda State Result :=
  let (due, later) := agenda.alarms.partition (·.due ≤ moment)
  let due := due.mergeSort fun left right => left.due ≤ right.due
  { agenda with now := moment, alarms := later, queue := agenda.queue ++ due.map (·.turn) }

/-- The agenda after all that can be done up to a moment, or for ever, in at most so many turns. -/
def runWithin (limit : Option Moment) : Nat → Agenda State Result → Agenda State Result
  | 0, agenda => agenda
  | turns + 1, agenda =>
    match agenda.queue with
    | turn :: rest => runWithin limit turns ({ agenda with queue := rest }.take turn)
    | [] =>
      match agenda.nextDue? with
      | none => agenda
      | some due =>
        if limit.all (due ≤ ·) then runWithin limit turns (agenda.moveTo due) else agenda

/-- The largest count of turns of one run. -/
def turnLimit : Nat := 1000000000

/-- The agenda after all that can be done without waiting. -/
def settle (agenda : Agenda State Result) : Agenda State Result :=
  runWithin (some agenda.now) turnLimit agenda

/-- The agenda after some time and after all that was due in it. -/
def advance (agenda : Agenda State Result) (span : Moment) : Agenda State Result :=
  let moment := agenda.now + span
  { runWithin (some moment) turnLimit agenda with now := moment }

/-- Holds if a task has ended. -/
def hasEnded (agenda : Agenda State Result) (task : TaskId) : Bool :=
  match agenda.statusOf task with
  | .ended _ => true
  | _ => false

/-- The agenda after all that had to be done for a task to end, in at most so many turns, and after
all else that could be done at the moment of its end. -/
def runUntil (task : TaskId) : Nat → Agenda State Result → Agenda State Result
  | 0, agenda => agenda
  | turns + 1, agenda =>
    if agenda.hasEnded task then agenda.settle
    else
      match agenda.queue with
      | turn :: rest => runUntil task turns ({ agenda with queue := rest }.take turn)
      | [] =>
        match agenda.nextDue? with
        | none => agenda
        | some due => runUntil task turns (agenda.moveTo due)

/-- The agenda after a process was done from its start to its end. -/
def perform (agenda : Agenda State Result) (process : Process State Result) :
    Agenda State Result :=
  (agenda.start process).runUntil agenda.tasks.size turnLimit

/-- The agenda after all that can be done. -/
def runAll (agenda : Agenda State Result) : Agenda State Result :=
  runWithin none turnLimit agenda

end Agenda

end ModelAssist
