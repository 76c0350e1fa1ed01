/-!
# Processes

A process is what a task has still to do.  It looks at a state that all tasks share and changes it,
starts and interrupts tasks, and waits: for its next turn, for some time, for the end of tasks, or
for the cancellation of a token.  A wait ends because what was waited for happened, or because the
task was interrupted, and the process decides what to do in both cases.
-/

namespace ModelAssist

/-- The number of a task. -/
abbrev TaskId := Nat

/-- The number of a cancellation token. -/
abbrev TokenId := Nat

/-- The number of a deadline. -/
abbrev DeadlineId := Nat

/-- Points in time and spans of time, in nanoseconds. -/
abbrev Moment := Nat

/-- How a wait ended. -/
inductive Wake where
  /-- What was waited for happened. -/
  | resumed
  | interrupted
deriving DecidableEq, Repr, Inhabited

/-- What a task has still to do.  Its result is absent if it ends because it was interrupted. -/
inductive Process (State Result : Type) : Type where
  | finish (result : Option Result)
  | look (next : State → Process State Result)
  | change (update : State → State) (next : Process State Result)
  | clock (next : Moment → Process State Result)
  /-- Waits for the next turn. -/
  | pause (next : Wake → Process State Result)
  /-- Waits for some time. -/
  | sleep (span : Moment) (next : Wake → Process State Result)
  /-- Starts a task, which begins in a turn of its own. -/
  | start (child : Process State Result) (next : TaskId → Process State Result)
  /-- Interrupts a task, unless it has ended. -/
  | interrupt (task : TaskId) (next : Process State Result)
  /-- Waits for the end of one of some tasks. -/
  | awaitAny (tasks : List TaskId) (next : Wake → Process State Result)
  /-- Looks at the result of a task, if it has ended. -/
  | ended (task : TaskId) (next : Option (Option Result) → Process State Result)
  | makeToken (next : TokenId → Process State Result)
  /-- Cancels a token for a reason, unless it is cancelled. -/
  | cancel (token : TokenId) (reason : String) (next : Process State Result)
  | cancelAfter (span : Moment) (token : TokenId) (reason : String) (next : Process State Result)
  /-- Looks at the reason for which a token was cancelled, if it was. -/
  | cancelled (token : TokenId) (next : Option String → Process State Result)
  /-- Waits for the cancellation of a token. -/
  | awaitCancel (token : TokenId) (next : Wake → Process State Result)
  /-- Sets a deadline, which interrupts this task after some time. -/
  | setDeadline (span : Moment) (next : DeadlineId → Process State Result)
  /-- Clears a deadline, and looks whether it had passed. -/
  | clearDeadline (deadline : DeadlineId) (next : Bool → Process State Result)

/-- Why a part of a process stops early. -/
inductive Stop (Fault : Type) where
  | interrupted
  /-- Something went wrong. -/
  | fault (fault : Fault)
deriving DecidableEq, Repr

/-- A part of a process that yields a value or stops early, given what is done afterwards. -/
def Act (State Result Fault Output : Type) : Type :=
  (Except (Stop Fault) Output → Process State Result) → Process State Result

namespace Act

variable {State Result Fault : Type}

instance : Monad (Act State Result Fault) where
  pure value := fun next => next (.ok value)
  bind act rest := fun next => act fun
    | .ok value => rest value next
    | .error stop => next (.error stop)

instance : MonadExceptOf (Stop Fault) (Act State Result Fault) where
  throw stop := fun next => next (.error stop)
  tryCatch act handler := fun next => act fun
    | .ok value => next (.ok value)
    | .error stop => handler stop next

/-- Stops because something went wrong. -/
def fail {Output : Type} (fault : Fault) : Act State Result Fault Output :=
  throw (.fault fault)

/-- How a part of a process ended, a fault being no reason to stop. -/
def attempt {Output : Type} (act : Act State Result Fault Output) :
    Act State Result Fault (Except (Stop Fault) Output) :=
  fun next => act fun ended => next (.ok ended)

/-- The rest of a process after a wait. -/
def afterWake (next : Except (Stop Fault) Unit → Process State Result) :
    Wake → Process State Result
  | .resumed => next (.ok ())
  | .interrupted => next (.error .interrupted)

/-- Looks at the state. -/
def look : Act State Result Fault State := fun next => .look fun state => next (.ok state)

/-- Changes the state. -/
def change (update : State → State) : Act State Result Fault Unit :=
  fun next => .change update (next (.ok ()))

/-- Changes the state by a step that also yields a value. -/
def step {Output : Type} (update : State → State × Output) : Act State Result Fault Output :=
  fun next => .look fun state =>
    let (state, output) := update state
    .change (fun _ => state) (next (.ok output))

/-- Looks at the clock. -/
def clock : Act State Result Fault Moment := fun next => .clock fun now => next (.ok now)

/-- Waits for the next turn. -/
def pause : Act State Result Fault Unit := fun next => .pause (afterWake next)

/-- Waits for some time. -/
def sleep (span : Moment) : Act State Result Fault Unit := fun next => .sleep span (afterWake next)

/-- Starts a task. -/
def start (child : Process State Result) : Act State Result Fault TaskId :=
  fun next => .start child fun task => next (.ok task)

/-- Interrupts a task. -/
def interrupt (task : TaskId) : Act State Result Fault Unit :=
  fun next => .interrupt task (next (.ok ()))

/-- Waits for the end of one of some tasks. -/
def awaitAny (tasks : List TaskId) : Act State Result Fault Unit :=
  fun next => .awaitAny tasks (afterWake next)

/-- The result of a task, if it has ended. -/
def ended (task : TaskId) : Act State Result Fault (Option (Option Result)) :=
  fun next => .ended task fun result => next (.ok result)

/-- Makes a token. -/
def makeToken : Act State Result Fault TokenId :=
  fun next => .makeToken fun token => next (.ok token)

/-- Cancels a token. -/
def cancel (token : TokenId) (reason : String) : Act State Result Fault Unit :=
  fun next => .cancel token reason (next (.ok ()))

/-- Cancels a token after some time. -/
def cancelAfter (span : Moment) (token : TokenId) (reason : String) :
    Act State Result Fault Unit :=
  fun next => .cancelAfter span token reason (next (.ok ()))

/-- The reason for which a token was cancelled, if it was. -/
def cancelled (token : TokenId) : Act State Result Fault (Option String) :=
  fun next => .cancelled token fun reason => next (.ok reason)

/-- Waits for the cancellation of a token. -/
def awaitCancel (token : TokenId) : Act State Result Fault Unit :=
  fun next => .awaitCancel token (afterWake next)

/-- Sets a deadline for this task. -/
def setDeadline (span : Moment) : Act State Result Fault DeadlineId :=
  fun next => .setDeadline span fun deadline => next (.ok deadline)

/-- Clears a deadline, and tells whether it had passed. -/
def clearDeadline (deadline : DeadlineId) : Act State Result Fault Bool :=
  fun next => .clearDeadline deadline fun passed => next (.ok passed)

/-- Does an act after another one however that ends, unless the second one stops itself. -/
def ensure {Output : Type} (act : Act State Result Fault Output)
    (after : Act State Result Fault Unit) : Act State Result Fault Output := do
  let ended ← attempt act
  after
  match ended with
  | .ok value => return value
  | .error stop => throw stop

/-- The process of a task that does an act and has no result. -/
def run (act : Act State Result Fault Unit) : Process State Result :=
  act fun _ => .finish none

/-- The process of a task whose result is what an act comes to, interruptions apart. -/
def toProcess {Output : Type} (act : Act State (Except Fault Output) Fault Output) :
    Process State (Except Fault Output) :=
  act fun
    | .ok value => .finish (some (.ok value))
    | .error (.fault fault) => .finish (some (.error fault))
    | .error .interrupted => .finish none

end Act

end ModelAssist
