import Mathlib.Data.List.Basic
import ModelAssist.Concurrency.Agenda

/-!
# Plans

What the tasks of an agenda do next, depending on how their waits end.  Interruptions, cancellations
and the ends of waits only decide which wait ends when, so they leave the plans alone.  What happens
to the tasks where waits end is said once (`Agenda.Rouses`): a task that waited may have a turn
instead, and nothing else changes.
-/

namespace ModelAssist

namespace TaskStatus

variable {State Result : Type}

/-- What a task does next, unless it has ended. -/
def plan? : TaskStatus State Result → Option (Wake → Process State Result)
  | .queued next _ | .waiting next _ => some next
  | .ended _ => none

/-- The status of a task that was interrupted. -/
def interrupted : TaskStatus State Result → TaskStatus State Result
  | .queued next _ | .waiting next _ => .queued next true
  | .ended result => .ended result

@[simp] theorem plan?_interrupted (status : TaskStatus State Result) :
    status.interrupted.plan? = status.plan? := by
  cases status <;> rfl

/-- Holds of the statuses of a task before and after waits were over. -/
inductive Rouses : TaskStatus State Result → TaskStatus State Result → Prop
  | kept (status : TaskStatus State Result) : Rouses status status
  | roused (next : Wake → Process State Result) (wait : Nat) :
      Rouses (.waiting next wait) (.queued next false)

variable {first second third : TaskStatus State Result}

/-- Waits may be over one after another. -/
theorem Rouses.trans (rouses : first.Rouses second) (rouses' : second.Rouses third) :
    first.Rouses third := by
  cases rouses with
  | kept _ => exact rouses'
  | roused next wait =>
      cases rouses' with
      | kept _ => exact .roused next wait

/-- A task whose wait is over goes on as it was about to. -/
theorem Rouses.plan?_eq (rouses : first.Rouses second) : second.plan? = first.plan? := by
  cases rouses <;> rfl

/-- Holds of the statuses of a task that is left at a wait, of which nothing is known yet. -/
inductive Parks (next : Wake → Process State Result) : TaskStatus State Result → Prop
  | queued : Parks next (.queued next false)
  | waiting (wait : Nat) : Parks next (.waiting next wait)

end TaskStatus

/-- What a task with a process does: if it is interrupted before its first turn, it ends at once. -/
def Process.opening {State Result : Type} (process : Process State Result) :
    Wake → Process State Result
  | .resumed => process
  | .interrupted => .finish none

namespace Agenda

variable {State Result : Type} (agenda : Agenda State Result)

/-- What a task does next. -/
def plan (task : TaskId) : Option (Wake → Process State Result) :=
  (agenda.statusOf task).plan?

/-- A task that has ended has the status of its end. -/
theorem exists_of_hasEnded {task : TaskId} (ended : agenda.hasEnded task) :
    ∃ result, agenda.statusOf task = .ended result := by
  unfold hasEnded at ended
  split at ended
  · next result status => exact ⟨result, status⟩
  · cases ended

/-- Setting the status of a known task changes the status of this task alone. -/
theorem statusOf_setStatus {task : TaskId} (known : task < agenda.tasks.size)
    (status : TaskStatus State Result) (other : TaskId) :
    (agenda.setStatus task status).statusOf other =
      if other = task then status else agenda.statusOf other := by
  simp only [setStatus, statusOf, Array.getElem?_modify]
  by_cases same : task = other
  · subst same
    simp [known]
  · simp [same, Ne.symm same]

/-- Setting the status of a known task changes its plan alone. -/
theorem plan_setStatus {task : TaskId} (known : task < agenda.tasks.size)
    (status : TaskStatus State Result) :
    (agenda.setStatus task status).plan = Function.update agenda.plan task status.plan? := by
  funext other
  rw [plan, agenda.statusOf_setStatus known, Function.update_apply]
  split
  · rfl
  · rfl

/-- A task that is started has its process to begin with, and nothing else changes. -/
theorem statusOf_start (process : Process State Result) (other : TaskId) :
    (agenda.start process).statusOf other =
      if other = agenda.tasks.size then .queued process.opening false
      else agenda.statusOf other := by
  simp only [statusOf, start, Array.getElem?_push]
  by_cases new : other = agenda.tasks.size
  · rw [if_pos new, if_pos new]
    rfl
  · rw [if_neg new, if_neg new]

/-- A task that is started has its process as its plan, and nothing else is planned anew. -/
theorem plan_start (process : Process State Result) (other : TaskId) :
    (agenda.start process).plan other =
      if other = agenda.tasks.size then some process.opening else agenda.plan other := by
  rw [plan, statusOf_start]
  split
  · rfl
  · rfl

/-- Nothing is planned for a task that was never started. -/
theorem lt_size_of_plan {agenda : Agenda State Result} {task : TaskId}
    {next : Wake → Process State Result} (planned : agenda.plan task = some next) :
    task < agenda.tasks.size := by
  by_contra beyond
  rw [plan, statusOf, Array.getElem?_eq_none (Nat.le_of_not_lt beyond)] at planned
  cases planned

/-! ## Interruptions -/

section Interrupt

variable (task : TaskId)

/-- An interruption changes the status of the task alone. -/
theorem statusOf_interrupt (other : TaskId) :
    (agenda.interrupt task).statusOf other =
      if other = task then (agenda.statusOf task).interrupted else agenda.statusOf other := by
  have known : ∀ next, agenda.plan task = some next → task < agenda.tasks.size :=
    fun next planned => lt_size_of_plan planned
  unfold interrupt
  split
  · next next interrupted found =>
      rw [found]
      exact agenda.statusOf_setStatus (known next (by rw [plan, found]; rfl)) _ other
  · next next wait found =>
      rw [found]
      exact agenda.statusOf_setStatus (known next (by rw [plan, found]; rfl)) _ other
  · next result found =>
      rw [found]
      split
      · next same => rw [same, found]; rfl
      · rfl

@[simp] theorem plan_interrupt : (agenda.interrupt task).plan = agenda.plan := by
  funext other
  rw [plan, statusOf_interrupt]
  split
  · next same => rw [TaskStatus.plan?_interrupted, same, plan]
  · rfl

@[simp] theorem state_interrupt : (agenda.interrupt task).state = agenda.state := by
  unfold interrupt
  split <;> rfl

@[simp] theorem size_interrupt : (agenda.interrupt task).tasks.size = agenda.tasks.size := by
  unfold interrupt
  split <;> simp [setStatus, enqueue, dropAlarms]

@[simp] theorem deadlines_interrupt : (agenda.interrupt task).deadlines = agenda.deadlines := by
  unfold interrupt
  split <;> rfl

variable (deadline : DeadlineId)

@[simp] theorem plan_passDeadline : (agenda.passDeadline deadline).plan = agenda.plan := by
  unfold passDeadline
  split
  · exact plan_interrupt _ _
  · rfl

@[simp] theorem state_passDeadline : (agenda.passDeadline deadline).state = agenda.state := by
  unfold passDeadline
  split
  · exact state_interrupt _ _
  · rfl

end Interrupt

/-! ## Ends of waits -/

/-- Holds of agendas before and after waits were over. -/
structure Rouses (before after : Agenda State Result) : Prop where
  state : after.state = before.state
  size : after.tasks.size = before.tasks.size
  deadlines : after.deadlines = before.deadlines
  statuses : ∀ task, (before.statusOf task).Rouses (after.statusOf task)

namespace Rouses

variable {first second third : Agenda State Result}

/-- No wait is over. -/
theorem refl : agenda.Rouses agenda := ⟨rfl, rfl, rfl, fun _ => .kept _⟩

theorem trans (rouses : first.Rouses second) (rouses' : second.Rouses third) :
    first.Rouses third where
  state := rouses'.state.trans rouses.state
  size := rouses'.size.trans rouses.size
  deadlines := rouses'.deadlines.trans rouses.deadlines
  statuses task := (rouses.statuses task).trans (rouses'.statuses task)

/-- The ends of waits leave the plans alone. -/
theorem plan_eq (rouses : first.Rouses second) : second.plan = first.plan :=
  funext fun task => (rouses.statuses task).plan?_eq

end Rouses

/-- What rouses for each of some items rouses for all of them. -/
theorem rouses_foldl {Item : Type}
    {step : Agenda State Result → Item → Agenda State Result}
    (rouses : ∀ (agenda : Agenda State Result) item, agenda.Rouses (step agenda item))
    (items : List Item) :
    agenda.Rouses (items.foldl step agenda) := by
  induction items generalizing agenda with
  | nil => exact .refl agenda
  | cons item rest ih => exact (rouses agenda item).trans (ih _)

/-- The end of a wait rouses its task, unless this has left the wait. -/
theorem rouses_wake (task : TaskId) (wait : Nat) : agenda.Rouses (agenda.wake task wait) := by
  unfold wake
  split
  · next next current found =>
      split
      · have known : task < agenda.tasks.size :=
          lt_size_of_plan (show agenda.plan task = some next by rw [plan, found]; rfl)
        refine ⟨rfl, Array.size_modify, rfl, fun other => ?_⟩
        change (agenda.statusOf other).Rouses
          ((agenda.setStatus task (.queued next false)).statusOf other)
        rw [agenda.statusOf_setStatus known]
        split
        · next own => rw [own, found]; exact .roused next current
        · exact .kept _
      · exact .refl agenda
  · exact .refl agenda

/-- The cancellation of a token rouses the tasks that wait for it. -/
theorem rouses_cancel (token : TokenId) (reason : String) :
    agenda.Rouses (agenda.cancel token reason) := by
  unfold cancel
  split
  · next watchers _ =>
      have woken := rouses_foldl
        { agenda with tokens := agenda.tokens.setIfInBounds token ⟨some reason, []⟩ }
        (fun agenda watcher => agenda.rouses_wake watcher.1 watcher.2) watchers
      exact ⟨woken.state, woken.size, woken.deadlines, woken.statuses⟩
  · exact .refl agenda

/-- To watch a task rouses none. -/
theorem rouses_watch (waiter : TaskId) (wait : Nat) (task : TaskId) :
    agenda.Rouses (agenda.watch waiter wait task) := by
  unfold watch
  split
  · exact ⟨rfl, rfl, rfl, fun _ => .kept _⟩
  · refine ⟨rfl, Array.size_modify, rfl, fun other => ?_⟩
    -- Only the watchers of the task change.
    simp only [statusOf, Array.getElem?_modify]
    by_cases same : task = other
    · rw [if_pos same]
      cases agenda.tasks[other]? <;> exact .kept _
    · rw [if_neg same]
      exact .kept _

/-- To watch some tasks rouses none. -/
theorem rouses_foldl_watch (waiter : TaskId) (wait : Nat) (tasks : List TaskId) :
    agenda.Rouses (tasks.foldl (watch waiter wait) agenda) :=
  rouses_foldl agenda (fun agenda task => agenda.rouses_watch waiter wait task) tasks

end Agenda

namespace Process

variable {State Result : Type}

/-- Holds of a process that waits, and of what it goes on with. -/
inductive Waits : Process State Result → (Wake → Process State Result) → Prop
  | pause (next : Wake → Process State Result) : Waits (.pause next) next
  | sleep (span : Moment) (next : Wake → Process State Result) : Waits (.sleep span next) next
  | awaitAny (tasks : List TaskId) (next : Wake → Process State Result) :
      Waits (.awaitAny tasks next) next
  | awaitCancel (token : TokenId) (next : Wake → Process State Result) :
      Waits (.awaitCancel token next) next

/-- A task that waits is left with what it goes on with, unless it goes on at once. -/
theorem Waits.carryOn {process : Process State Result} {next : Wake → Process State Result}
    (waits : process.Waits next) (task : TaskId) (agenda : Agenda State Result) :
    Agenda.carryOn task process agenda = Agenda.carryOn task (next .resumed) agenda ∨
      ∃ status : TaskStatus State Result, status.Parks next ∧
        (agenda.setStatus task status).Rouses (Agenda.carryOn task process agenda) := by
  cases waits with
  | pause next => exact .inr ⟨_, .queued, rfl, rfl, rfl, fun _ => .kept _⟩
  | sleep span next => exact .inr ⟨_, .waiting agenda.nextWait, rfl, rfl, rfl, fun _ => .kept _⟩
  | awaitAny tasks next =>
      have watched := (agenda.enterWait task next).rouses_foldl_watch task agenda.nextWait tasks
      exact .inr ⟨_, .waiting agenda.nextWait, watched.state, watched.size, watched.deadlines,
        watched.statuses⟩
  | awaitCancel token next =>
      simp only [Agenda.carryOn]
      split
      · exact .inr ⟨_, .waiting agenda.nextWait, rfl, rfl, rfl, fun _ => .kept _⟩
      · exact .inl rfl

end Process

end ModelAssist
