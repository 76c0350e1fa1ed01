import ModelAssist.Concurrency.Cancellation
import ModelAssist.Concurrency.Span
import ModelAssist.Proofs.Concurrency.Reach

/-!
# Processes that are alone

What a process comes to that starts nothing and waits for nothing but the clock, while nothing else
goes on: it runs to its end, or to a sleep beyond the time that it is given (`Process.alone`).  A
task of an agenda with such a process gets there (`Agenda.Reaches.alone`).
-/

namespace ModelAssist

variable {State Result : Type}

/-- Where a process gets by itself. -/
inductive Pursuit (State Result : Type) where
  | ended (result : Option Result)
  /-- It is about to sleep beyond its time. -/
  | overdue (span : Moment) (next : Wake → Process State Result)

/-- What is left of a process there. -/
def Pursuit.process : Pursuit State Result → Process State Result
  | .ended result => .finish result
  | .overdue span next => .sleep span next

/-- Where a process gets by itself, with the state and the moment then; `none` if it needs
others. -/
def Process.alone (limit : Option Moment) :
    Process State Result → State → Moment → Option (Pursuit State Result × State × Moment)
  | .finish result, state, now => some (.ended result, state, now)
  | .look next, state, now => (next state).alone limit state now
  | .change update next, state, now => next.alone limit (update state) now
  | .clock next, state, now => (next now).alone limit state now
  | .pause next, state, now => (next .resumed).alone limit state now
  | .sleep span next, state, now =>
    if limit.any (· ≤ now + span) then some (.overdue span next, state, now)
    else (next .resumed).alone limit state (now + span)
  | _, _, _ => none

/-- A process is about to sleep beyond its time only if the sleep ends then or later. -/
theorem Process.overdue_of_alone {limit : Option Moment} {process : Process State Result}
    {state last : State} {now moment span : Moment} {next : Wake → Process State Result}
    (gets : process.alone limit state now = some (.overdue span next, last, moment)) :
    ∃ due ∈ limit, due ≤ moment + span := by
  induction process generalizing state now with
  | look _ ih | clock _ ih | pause _ ih => exact ih _ gets
  | change _ _ ih => exact ih gets
  | sleep _ _ ih =>
      rw [Process.alone] at gets
      split at gets
      · next late =>
          cases gets
          cases limit with
          | none => cases late
          | some due => exact ⟨due, rfl, of_decide_eq_true late⟩
      · exact ih _ gets
  | _ => cases gets

namespace Agenda

/-- What a task leaves as it is that took turns while nothing else went on. -/
structure Resumed (task : TaskId) (before after : Agenda State Result) : Prop where
  queue : after.queue = before.queue
  alarms : after.alarms = before.alarms
  tokens : after.tokens = before.tokens
  deadlines : after.deadlines = before.deadlines
  nextWait : before.nextWait ≤ after.nextWait
  others : ∀ other, other ≠ task → after.tasks[other]? = before.tasks[other]?
  own : ∀ entry, before.tasks[task]? = some entry →
    ∃ status, after.tasks[task]? = some ⟨status, entry.watchers⟩

namespace Resumed

variable {task : TaskId} {before middle after : Agenda State Result}

/-- Nothing is left to resume where nothing was done. -/
theorem refl (agenda : Agenda State Result) : Resumed task agenda agenda :=
  ⟨rfl, rfl, rfl, rfl, Nat.le_refl _, fun _ _ => rfl, fun entry known => ⟨entry.status, known⟩⟩

/-- A task may be resumed again and again. -/
theorem trans (first : Resumed task before middle) (second : Resumed task middle after) :
    Resumed task before after where
  queue := second.queue.trans first.queue
  alarms := second.alarms.trans first.alarms
  tokens := second.tokens.trans first.tokens
  deadlines := second.deadlines.trans first.deadlines
  nextWait := Nat.le_trans first.nextWait second.nextWait
  others other different := (second.others other different).trans (first.others other different)
  own entry known := by
    obtain ⟨status, known'⟩ := first.own entry known
    exact second.own ⟨status, entry.watchers⟩ known'

/-- The shared state is no matter of how a task is resumed. -/
theorem withState (agenda : Agenda State Result) (state : State) :
    Resumed task agenda { agenda with state } :=
  ⟨rfl, rfl, rfl, rfl, Nat.le_refl _, fun _ _ => rfl, fun entry known => ⟨entry.status, known⟩⟩

/-- A task that was set to another status is resumed from it. -/
theorem setStatus (agenda : Agenda State Result) (status : TaskStatus State Result) (state : State)
    (now : Moment) {nextWait : Nat} (waits : agenda.nextWait ≤ nextWait) :
    Resumed task agenda { agenda.setStatus task status with state, now, nextWait } where
  queue := rfl
  alarms := rfl
  tokens := rfl
  deadlines := rfl
  nextWait := waits
  others _ different := agenda.getElem?_setStatus_of_ne different status
  own _ known := ⟨status, getElem?_setStatus_self known status⟩

end Resumed

variable {agenda : Agenda State Result} {task : TaskId}

/-- Of two statuses that are set for one task the second one counts. -/
theorem setStatus_setStatus (agenda : Agenda State Result) (task : TaskId)
    (first second : TaskStatus State Result) :
    (agenda.setStatus task first).setStatus task second = agenda.setStatus task second := by
  have same : (agenda.tasks.modify task fun old => { old with status := first }).modify task
      (fun old => { old with status := second }) =
        agenda.tasks.modify task fun old => { old with status := second } := by
    apply Array.ext_getElem?
    intro other
    simp only [Array.getElem?_modify]
    split
    · rw [Option.map_map]
      rfl
    · rfl
  simp only [Agenda.setStatus, same]

@[simp] theorem size_setStatus (agenda : Agenda State Result) (task : TaskId)
    (status : TaskStatus State Result) :
    (agenda.setStatus task status).tasks.size = agenda.tasks.size :=
  Array.size_modify

/-- A task keeps its watchers when its status is set. -/
theorem exists_watchers (known : task < agenda.tasks.size) (status : TaskStatus State Result) :
    ∃ watchers, (agenda.setStatus task status).tasks[task]? = some ⟨status, watchers⟩ :=
  ⟨agenda.tasks[task].watchers, getElem?_setStatus_self (Array.getElem?_eq_getElem known) status⟩

namespace Reaches

variable {next : Wake → Process State Result}

/-- A task that only waits for its next turn has it when nothing else is in the queue. -/
theorem pause (known : task < agenda.tasks.size) (queue : agenda.queue = []) :
    (carryOn task (.pause next) agenda).Reaches
      (carryOn task (next .resumed) (agenda.setStatus task (.queued next false))) := by
  let queued := agenda.setStatus task (.queued next false)
  obtain ⟨watchers, found⟩ := exists_watchers known (.queued next false)
  have queueEq : (queued.enqueue (.task task)).queue = .task task :: [] := by
    simp [queued, enqueue, Agenda.setStatus, queue]
  have goes := resume queueEq found
  have same : { queued.enqueue (.task task) with queue := [] } = queued := by
    simp only [queued, enqueue, Agenda.setStatus, ← queue]
  rwa [same] at goes

/-- A task that sleeps goes on at its time if nothing else is in the queue or due by then. -/
theorem sleep {span : Moment} (known : task < agenda.tasks.size) (queue : agenda.queue = [])
    (later : ∀ alarm ∈ agenda.alarms, agenda.now + span < alarm.due) :
    (carryOn task (.sleep span next) agenda).Reaches
      (carryOn task (next .resumed)
        { agenda.setStatus task (.queued next false) with
          now := agenda.now + span
          nextWait := agenda.nextWait + 1 }) := by
  obtain ⟨watchers, found⟩ := exists_watchers known (.waiting next agenda.nextWait)
  let asleep := (agenda.enterWait task next).setAlarm span (.wake task agenda.nextWait)
  have queueEq : asleep.queue = [] := queue
  have goes := elapse queueEq rfl later found
  have same := agenda.setStatus_setStatus task (.waiting next agenda.nextWait) (.queued next false)
  simp only [Agenda.setStatus, Agenda.mk.injEq, true_and, and_true] at same
  simp only [asleep, Agenda.setStatus, enterWait, setAlarm, same, ← queue] at goes ⊢
  exact goes

/-- **A task gets where its process gets by itself**, if nothing else is in the queue and nothing
is due within the time that the process is given. -/
theorem alone {limit : Option Moment} (process : Process State Result)
    (known : task < agenda.tasks.size) (queue : agenda.queue = [])
    (due : ∀ alarm ∈ agenda.alarms, ∃ moment ∈ limit, moment ≤ alarm.due)
    {pursuit : Pursuit State Result} {state : State} {now : Moment}
    (gets : process.alone limit agenda.state agenda.now = some (pursuit, state, now)) :
    ∃ after, (carryOn task process agenda).Reaches (carryOn task pursuit.process after) ∧
      Resumed task agenda after ∧ after.state = state ∧ after.now = now := by
  -- On what the task does next; every wait leads to the same task in an agenda as calm as before.
  induction process generalizing agenda with
  | finish result =>
      rw [Process.alone] at gets
      cases gets
      exact ⟨agenda, refl _, .refl agenda, rfl, rfl⟩
  | look next ih => exact ih _ known queue due gets
  | change update next ih =>
      obtain ⟨after, reaches, resumed, met⟩ :=
        @ih { agenda with state := update agenda.state } known queue due gets
      exact ⟨after, reaches, (Resumed.withState agenda _).trans resumed, met⟩
  | clock next ih => exact ih _ known queue due gets
  | pause next ih =>
      let queued := agenda.setStatus task (.queued next false)
      have known' : task < queued.tasks.size := by rwa [size_setStatus]
      obtain ⟨after, reaches, resumed, met⟩ := @ih .resumed queued known' queue due gets
      have before : Resumed task agenda queued :=
        .setStatus agenda _ agenda.state agenda.now (Nat.le_refl _)
      exact ⟨after, (pause known queue).trans reaches, before.trans resumed, met⟩
  | sleep span next ih =>
      rw [Process.alone] at gets
      split at gets
      · cases gets
        exact ⟨agenda, refl _, .refl agenda, rfl, rfl⟩
      · next early =>
          have later : ∀ alarm ∈ agenda.alarms, agenda.now + span < alarm.due := by
            intro alarm member
            obtain ⟨moment, given, bound⟩ := due alarm member
            obtain rfl : limit = some moment := given
            simp only [Option.any_some, decide_eq_true_eq, Nat.not_le] at early
            exact Nat.lt_of_lt_of_le early bound
          let woken : Agenda State Result := { agenda.setStatus task (.queued next false) with
            now := agenda.now + span
            nextWait := agenda.nextWait + 1 }
          have known' : task < woken.tasks.size := (size_setStatus agenda task _).symm ▸ known
          obtain ⟨after, reaches, resumed, met⟩ := @ih .resumed woken known' queue due gets
          have before : Resumed task agenda woken :=
            .setStatus agenda _ agenda.state _ (Nat.le_succ _)
          exact ⟨after, (sleep known queue later).trans reaches, before.trans resumed, met⟩
  | _ => cases gets

end Reaches

end Agenda

end ModelAssist
