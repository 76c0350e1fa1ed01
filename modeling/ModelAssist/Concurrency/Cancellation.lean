import ModelAssist.Concurrency.Process

/-!
# Cancellable work

Work that is given up as soon as a token is cancelled, or when its time is over.  The work runs as a
task of its own, so that it can be interrupted.  Whoever cancels goes on at once with the reason of
the token; after the end of the time the work is first given the chance to clean up.
-/

namespace ModelAssist

/-- The reason that is given if a token was cancelled for none. -/
def statedReason (reason : String) : String :=
  if reason = "" then "cancelled" else reason

namespace Act

variable {State Fault Output : Type}

/-- Stops if a token was cancelled. -/
def stopIfCancelled (onCancel : String → Fault) (token : TokenId) :
    Act State (Except Fault Output) Fault Unit := do
  match ← cancelled token with
  | some reason => fail (onCancel (statedReason reason))
  | none => return

/-- What came of work that has ended; work that was interrupted has come to nothing. -/
def resultOf (work : TaskId) : Act State (Except Fault Output) Fault Output := do
  match ← ended work with
  | some (some (.ok value)) => return value
  | some (some (.error fault)) => fail fault
  | _ => throw .interrupted

/-- Does an act in a task of its own, which is interrupted when the token is cancelled first. -/
def untilCancelled (onCancel : String → Fault)
    (act : Act State (Except Fault Output) Fault Output) (token : TokenId) :
    Act State (Except Fault Output) Fault Output := do
  stopIfCancelled onCancel token
  let work ← start (toProcess act)
  let watcher ← start (run (awaitCancel token : Act State _ Fault Unit))
  match ← attempt (awaitAny [work, watcher]) with
  | .error stop =>
    interrupt work
    interrupt watcher
    throw stop
  | .ok _ =>
    interrupt watcher
    if (← ended work : Option (Option (Except Fault Output))).isSome then resultOf work
    else
      interrupt work
      fail (onCancel (statedReason ((← cancelled token).getD "")))

/-- Interrupts work and waits until it has ended. -/
def stopAndWait (work : TaskId) : Act State (Except Fault Output) Fault Unit := do
  interrupt work
  awaitAny [work]

/-- Does an act in a task of its own, which is interrupted when its time is over. -/
def within (span : Moment) (onTimeout : Fault)
    (act : Act State (Except Fault Output) Fault Output) :
    Act State (Except Fault Output) Fault Output := do
  let deadline ← setDeadline span
  let work ← start (toProcess act)
  let waited ← attempt (awaitAny [work])
  let passed ← clearDeadline deadline
  match waited with
  | .ok _ => resultOf work
  | .error stop =>
    stopAndWait work
    if passed then fail onTimeout else throw stop

/-- Does an act, given up when the token is cancelled if there is one. -/
def cancellable (onCancel : String → Fault)
    (act : Act State (Except Fault Output) Fault Output) :
    Option TokenId → Act State (Except Fault Output) Fault Output
  | none => act
  | some token => untilCancelled onCancel act token

end Act

end ModelAssist
