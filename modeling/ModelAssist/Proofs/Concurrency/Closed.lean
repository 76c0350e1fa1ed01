import ModelAssist.Concurrency.Cancellation
import ModelAssist.Concurrency.Span

/-!
# Properties of acts that carry over to what is made of them

A property composes if acts of one step have it, those that change the state apart, and if the whole
of some acts has it that each have it.  Of the tasks that an act starts it may ask something else.
It is closed if work that ends with a deadline or with a token has it too, whether or not the work
itself has it.  A property that composes is closed if tasks may be interrupted and their results
looked at, and deadlines set and cleared (`Act.Composes.closed`).
-/

namespace ModelAssist

variable {State Fault Value : Type}

/-- Holds of the properties that carry over from acts to what they make up, if the tasks that are
started are admitted. -/
structure Act.Composes
    (holds : ∀ {Output : Type}, Act State (Except Fault Value) Fault Output → Prop)
    (admits : Process State (Except Fault Value) → Prop) : Prop where
  pure : ∀ {Output : Type} (value : Output), holds (Pure.pure value)
  throw : ∀ {Output : Type} (stop : Stop Fault),
    holds (throw stop : Act State (Except Fault Value) Fault Output)
  bind : ∀ {Output Other : Type} {act : Act State (Except Fault Value) Fault Output}
    {rest : Output → Act State (Except Fault Value) Fault Other},
    holds act → (∀ output, holds (rest output)) → holds (act >>= rest)
  attempt : ∀ {Output : Type} {act : Act State (Except Fault Value) Fault Output},
    holds act → holds (Act.attempt act)
  look : holds Act.look
  clock : holds Act.clock
  pause : holds Act.pause
  sleep : ∀ span, holds (Act.sleep span)
  start : ∀ {child}, admits child → holds (Act.start child)
  awaitAny : ∀ tasks, holds (Act.awaitAny tasks)
  cancelled : ∀ token, holds (Act.cancelled token)

/-- Holds of the properties that carry over to work with a deadline and to work with a token, too.
The work is done by a task of its own, so that only this task matters. -/
structure Act.Closed
    (holds : ∀ {Output : Type}, Act State (Except Fault Value) Fault Output → Prop)
    (admits : Process State (Except Fault Value) → Prop) : Prop
    extends Act.Composes holds admits where
  within : ∀ {act} (span : Moment) (onTimeout : Fault), admits (Act.toProcess act) →
    holds (Act.within span onTimeout act)
  untilCancelled : ∀ {act} (onCancel : String → Fault) (token : TokenId),
    admits (Act.toProcess act) →
    admits (Act.run (Act.awaitCancel token : Act State _ Fault Unit)) →
    holds (Act.untilCancelled onCancel act token)

variable {holds : ∀ {Output : Type}, Act State (Except Fault Value) Fault Output → Prop}
  {admits : Process State (Except Fault Value) → Prop}

namespace Act.Composes

variable {Output : Type} (composes : Composes holds admits)
include composes

theorem fail (fault : Fault) :
    holds (Act.fail fault : Act State (Except Fault Value) Fault Output) :=
  composes.throw (.fault fault)

theorem ensure {act : Act State (Except Fault Value) Fault Output}
    {last : Act State (Except Fault Value) Fault Unit} (first : holds act) (second : holds last) :
    holds (Act.ensure act last) := by
  refine composes.bind (composes.attempt first) fun ended => composes.bind second fun _ => ?_
  cases ended with
  | ok value => exact composes.pure value
  | error stop => exact composes.throw stop

theorem sleepSeconds (seconds : Float) : holds (Act.sleepSeconds seconds) := by
  unfold Act.sleepSeconds
  split
  · exact composes.sleep _
  · exact composes.pause

/-- What follows a look at a token may stop for its reason. -/
theorem stopIfCancelled (onCancel : String → Fault) (token : TokenId) :
    holds (Act.stopIfCancelled onCancel token) := by
  refine composes.bind (composes.cancelled token) fun reason => ?_
  cases reason with
  | some reason => exact composes.fail _
  | none => exact composes.pure _

/-- Work that may be interrupted is all that it takes. -/
theorem closed (interrupt : ∀ task, holds (Act.interrupt task))
    (ended : ∀ task, holds (Act.ended task)) (setDeadline : ∀ span, holds (Act.setDeadline span))
    (clearDeadline : ∀ deadline, holds (Act.clearDeadline deadline)) : Closed holds admits := by
  have resultOf : ∀ work, holds (Act.resultOf work) := by
    intro work
    refine composes.bind (ended work) fun result => ?_
    split
    · exact composes.pure _
    · exact composes.fail _
    · exact composes.throw _
  refine { composes with
    within := fun span onTimeout admitted => ?_
    untilCancelled := fun onCancel token admitted watched => ?_ }
  · refine composes.bind (setDeadline span) fun deadline => ?_
    refine composes.bind (composes.start admitted) fun work => ?_
    refine composes.bind (composes.attempt (composes.awaitAny [work])) fun waited => ?_
    refine composes.bind (clearDeadline deadline) fun passed => ?_
    cases waited with
    | ok _ => exact resultOf work
    | error stop =>
        refine composes.bind (composes.bind (interrupt work) fun _ => composes.awaitAny [work]) ?_
        intro _
        cases passed with
        | true => exact composes.fail onTimeout
        | false => exact composes.throw stop
  · refine composes.bind (composes.stopIfCancelled onCancel token) fun _ => ?_
    refine composes.bind (composes.start admitted) fun work => ?_
    refine composes.bind (composes.start watched) fun watcher => ?_
    refine composes.bind (composes.attempt (composes.awaitAny [work, watcher])) fun waited => ?_
    cases waited with
    | error stop =>
        refine composes.bind (interrupt work) fun _ => ?_
        exact composes.bind (interrupt watcher) fun _ => composes.throw stop
    | ok _ =>
        refine composes.bind (interrupt watcher) fun _ => ?_
        refine composes.bind (ended work) fun result => ?_
        split
        · exact resultOf work
        · refine composes.bind (interrupt work) fun _ => ?_
          exact composes.bind (composes.cancelled token) fun _ => composes.fail _

end Act.Composes

/-- Work that a token may stop, if there is one, has the property. -/
theorem Act.Closed.cancellable (closed : Closed holds admits)
    {act : Act State (Except Fault Value) Fault Value} (own : holds act)
    (admitted : admits (Act.toProcess act)) (onCancel : String → Fault)
    (watched : ∀ token, admits (Act.run (Act.awaitCancel token : Act State _ Fault Unit)))
    (token : Option TokenId) : holds (Act.cancellable onCancel act token) := by
  cases token with
  | none => exact own
  | some token => exact closed.untilCancelled onCancel token admitted (watched token)

end ModelAssist
