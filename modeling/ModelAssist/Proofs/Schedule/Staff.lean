import Mathlib.Data.List.Nodup
import ModelAssist.Proofs.Schedule.Service
import ModelAssist.Proofs.Schedule.Start

/-!
# Staff of a schedule

The tasks of an agenda as the staff of a schedule.  Every live job of a course has a worker, whose
task is on the errand of this job until it reports it or loses it (`Agenda.Staffs`).  What was told
is what the history of the course had told, as far as its commands have been carried out.

Here are the small steps that keep this up: a task is started or interrupted, a worker is hired or
dismissed, and the task whose turn it is goes on another errand.
-/

namespace ModelAssist

open Schedule (Job)

variable {State Result Fault Message : Type}

/-- What a task may interrupt and has to report, and whether it has begun. -/
structure Errand where
  own : List TaskId
  job : Option Job
  hasBegun : Bool

namespace Errand

/-- No errand at all. -/
def none : Errand := ⟨[], .none, false⟩

/-- The errand of a task that has nothing to report any more. -/
def idle (errand : Errand) : Errand :=
  { errand with job := .none }

/-- The errand of a task that was interrupted: only a validation has still to be reported. -/
def interrupted (errand : Errand) : Errand :=
  { errand with job := errand.job.filter Job.isValidation }

/-- Holds of the errands that an interruption does not end. -/
def isSteady (errand : Errand) : Bool :=
  errand.hasBegun && errand.job.all Job.isValidation

/-- An errand without a job is as steady as it was with one. -/
theorem isSteady_idle {errand : Errand} (steady : errand.isSteady) : errand.idle.isSteady :=
  Bool.and_eq_true_iff.mpr ⟨(Bool.and_eq_true_iff.mp steady).1, rfl⟩

theorem filter_eq {job : Option Job} (validates : job.all Job.isValidation) :
    job.filter Job.isValidation = job := by
  cases job with
  | none => rfl
  | some job => exact Option.filter_eq_some_iff.mpr ⟨rfl, validates⟩

/-- Of an errand without a quiet period nothing is dropped. -/
theorem interrupted_eq {errand : Errand} (validates : errand.job.all Job.isValidation) :
    errand.interrupted = errand := by
  rw [interrupted, filter_eq validates]

/-- Holds of the statuses that a task on an errand may have: it serves, and an interruption ends its
errand, if at all, without a report. -/
def Suits (herald : Herald State Result Fault Message) (cancelled : List Ticket)
    (errand : Errand) : TaskStatus State Result → Prop
  | .queued next false | .waiting next _ =>
    (∀ after, (next .resumed).Serves herald errand.own errand.job [] after) ∧
      if errand.isSteady then
        ∀ after, (next .interrupted).Serves herald errand.own errand.job [] after
      else next .interrupted = .finish .none
  | .queued next true =>
    errand.job.all Job.isValidation ∧
      ((∀ after, (next .interrupted).Serves herald errand.own errand.job [] after) ∨
        next .interrupted = .finish .none ∧ ∀ job ∈ errand.job, job.ticket ∈ cancelled)
  | .ended _ => errand.job = .none

variable {herald : Herald State Result Fault Message} {cancelled : List Ticket} {errand : Errand}
  {status : TaskStatus State Result}

/-- A task that is left at a wait serves however the wait ends, or drops a quiet period when it is
interrupted. -/
theorem suits_of_parks {next : Wake → Process State Result} (parks : status.Parks next)
    (resumes : ∀ after, (next .resumed).Serves herald errand.own errand.job [] after)
    (ends : if errand.isSteady then
        ∀ after, (next .interrupted).Serves herald errand.own errand.job [] after
      else next .interrupted = .finish .none) :
    errand.Suits herald cancelled status := by
  cases parks with
  | queued => exact ⟨resumes, ends⟩
  | waiting wait => exact ⟨resumes, ends⟩

/-- The end of a wait suits every errand. -/
theorem Suits.rouse (suits : errand.Suits herald cancelled status)
    {later : TaskStatus State Result} (rouses : status.Rouses later) :
    errand.Suits herald cancelled later := by
  cases rouses with
  | kept _ => exact suits
  | roused next wait => exact suits

/-- What suits an errand suits it still when more was cancelled. -/
theorem Suits.mono (suits : errand.Suits herald cancelled status) {further : List Ticket}
    (kept : cancelled ⊆ further) : errand.Suits herald further status := by
  match status with
  | .queued next false => exact suits
  | .waiting next wait => exact suits
  | .ended result => exact suits
  | .queued next true =>
      refine ⟨suits.1, suits.2.imp_right fun lost => ⟨lost.1, fun job own => ?_⟩⟩
      exact kept (lost.2 job own)

/-- An interruption ends a quiet period; of other work only what is steady goes on, or what was
cancelled. -/
theorem Suits.interrupt (suits : errand.Suits herald cancelled status)
    (fits : errand.isSteady ∨
      ∀ job ∈ errand.job, job.isValidation → job.ticket ∈ cancelled) :
    errand.interrupted.Suits herald cancelled status.interrupted := by
  have validates : errand.interrupted.job.all Job.isValidation := by
    change (errand.job.filter Job.isValidation).all Job.isValidation
    cases errand.job with
    | none => rfl
    | some job => cases holds : job.isValidation <;> simp
  have breaks : ∀ next : Wake → Process State Result,
      ((if errand.isSteady then
          ∀ after, (next .interrupted).Serves herald errand.own errand.job [] after
        else next .interrupted = .finish .none)) →
      errand.interrupted.Suits herald cancelled (.queued next true) := by
    intro next ends
    refine ⟨validates, ?_⟩
    split at ends
    · next steady =>
        rw [interrupted_eq (Bool.and_eq_true_iff.mp steady).2]
        exact .inl ends
    · next brief =>
        refine .inr ⟨ends, fun job member => ?_⟩
        obtain ⟨own, validation⟩ := Option.filter_eq_some_iff.mp member
        rcases fits with steady | fits
        · exact absurd steady brief
        · exact fits job own validation
  match status with
  | .queued next false => exact breaks next suits.2
  | .waiting next wait => exact breaks next suits.2
  | .queued next true =>
      rw [interrupted_eq suits.1]
      exact suits
  | .ended result =>
      change errand.job = .none at suits
      change errand.job.filter Job.isValidation = .none
      rw [suits]
      rfl

end Errand

namespace Dispatch

/-- Holds of a task and the job that it was employed for. -/
def Employs (dispatch : Dispatch) (task : TaskId) (job : Job) : Prop :=
  ∃ worker ∈ dispatch.workers, worker.task = task ∧ worker.ticket = job.ticket

/-- The tickets of the workers and of the work that some commands begin. -/
def tickets (dispatch : Dispatch) (due : List ScheduleCommand) : List Ticket :=
  dispatch.workers.map Worker.ticket ++ due.filterMap ScheduleCommand.begun?

/-- Holds of workers with tickets and tasks of their own, so that every job has a worker. -/
structure Manned (dispatch : Dispatch) (jobs : List Job) (due : List ScheduleCommand)
    (size : Nat) : Prop where
  tickets_nodup : (dispatch.tickets due).Nodup
  ticket_lt : ∀ ticket ∈ dispatch.tickets due, ticket < dispatch.schedule.nextTicket
  tasks_nodup : (dispatch.workers.map Worker.task).Nodup
  task_lt : ∀ worker ∈ dispatch.workers, worker.task < size
  employed : ∀ job ∈ jobs, ∃ worker ∈ dispatch.workers, worker.ticket = job.ticket
  /-- Validations are interrupted only after they were cancelled. -/
  cancels : ∀ job ∈ Job.obeyAll jobs due, .interrupt job.ticket ∈ due → job.isValidation →
    job.ticket ∈ dispatch.schedule.cancelled

namespace Manned

variable {dispatch : Dispatch} {jobs : List Job} {due : List ScheduleCommand} {size : Nat}

/-- A worker is the only one with its task, and the only one with its ticket. -/
theorem task_eq_iff (manned : dispatch.Manned jobs due size) {first second : Worker}
    (member : first ∈ dispatch.workers) (member' : second ∈ dispatch.workers) :
    first.task = second.task ↔ first.ticket = second.ticket := by
  constructor
  · intro same
    rw [List.inj_on_of_nodup_map manned.tasks_nodup member member' same]
  · intro same
    have tickets := (List.nodup_append.mp manned.tickets_nodup).1
    rw [List.inj_on_of_nodup_map tickets member member' same]

/-- A command that begins a job has its ticket for itself. -/
theorem ticket_ne {command : ScheduleCommand} {ticket : Ticket}
    (manned : dispatch.Manned jobs (command :: due) size)
    (begins : command.begun? = some ticket) {worker : Worker}
    (member : worker ∈ dispatch.workers) : worker.ticket ≠ ticket := by
  have distinct := manned.tickets_nodup
  rw [tickets, List.filterMap_cons_some begins] at distinct
  exact (List.nodup_append.mp distinct).2.2 _ (List.mem_map_of_mem member) _ List.mem_cons_self

/-- A command that begins nothing and leaves the jobs alone makes no difference to the workers. -/
theorem skip {command : ScheduleCommand} (manned : dispatch.Manned jobs (command :: due) size)
    (begins : command.begun? = none) (obeys : Job.obey jobs command = jobs) :
    dispatch.Manned jobs due size := by
  have tickets : dispatch.tickets (command :: due) = dispatch.tickets due := by
    rw [Dispatch.tickets, Dispatch.tickets, List.filterMap_cons_none begins]
  exact { manned with
    tickets_nodup := tickets ▸ manned.tickets_nodup
    ticket_lt := tickets ▸ manned.ticket_lt
    cancels := fun job live interrupts => manned.cancels job
      (by rwa [Job.obeyAll_cons, obeys]) (List.mem_cons_of_mem _ interrupts) }

/-- A worker with a new task takes over the job that a command begins. -/
theorem hire {command : ScheduleCommand} {job : Job} {token : Option TokenId}
    (manned : dispatch.Manned jobs (command :: due) size)
    (begins : command.begun? = some job.ticket) (obeys : Job.obey jobs command = jobs ++ [job]) :
    ({ dispatch with workers := dispatch.workers ++ [⟨job.ticket, size, token⟩] } :
      Dispatch).Manned (jobs ++ [job]) due (size + 1) := by
  have tickets : ({ dispatch with workers := dispatch.workers ++ [⟨job.ticket, size, token⟩] } :
      Dispatch).tickets due = dispatch.tickets (command :: due) := by
    rw [Dispatch.tickets, Dispatch.tickets, List.filterMap_cons_some begins]
    simp
  refine ⟨?_, ?_, ?_, ?_, ?_, ?_⟩
  · rw [tickets]
    exact manned.tickets_nodup
  · rw [tickets]
    exact manned.ticket_lt
  · rw [List.map_append, List.nodup_append]
    refine ⟨manned.tasks_nodup, List.nodup_singleton _, ?_⟩
    rintro _ known _ last
    obtain ⟨worker, member, rfl⟩ := List.mem_map.mp known
    rw [List.mem_singleton.mp last]
    exact Nat.ne_of_lt (manned.task_lt worker member)
  · intro worker member
    rcases List.mem_append.mp member with old | new
    · exact Nat.lt_succ_of_lt (manned.task_lt worker old)
    · rw [List.mem_singleton.mp new]
      exact Nat.lt_succ_self size
  · intro live member
    rcases List.mem_append.mp member with old | new
    · obtain ⟨worker, member, same⟩ := manned.employed live old
      exact ⟨worker, List.mem_append_left _ member, same⟩
    · exact ⟨_, List.mem_append_right _ (List.mem_singleton_self _),
        congrArg Job.ticket (List.mem_singleton.mp new).symm⟩
  · intro live member interrupts
    rw [← obeys, ← Job.obeyAll_cons] at member
    exact manned.cancels live member (List.mem_cons_of_mem _ interrupts)

/-- Nobody worked before on the job that a command begins. -/
theorem not_employs {command : ScheduleCommand} {job : Job}
    (manned : dispatch.Manned jobs (command :: due) size)
    (begins : command.begun? = some job.ticket) (task : TaskId) : ¬ dispatch.Employs task job := by
  rintro ⟨worker, member, -, same⟩
  exact manned.ticket_ne begins member same

/-- The task with the next number is employed for nothing. -/
theorem not_employs_size (manned : dispatch.Manned jobs due size) (job : Job) :
    ¬ dispatch.Employs size job := by
  rintro ⟨worker, member, same, -⟩
  exact Nat.ne_of_lt (manned.task_lt worker member) same

/-- A task works for one of the jobs that a command leaves if it did and is not interrupted. -/
theorem employs_interrupt_iff {worker : Worker}
    (manned : dispatch.Manned jobs due size) (member : worker ∈ dispatch.workers)
    (task : TaskId) (job : Job) :
    job ∈ Job.obey jobs (.interrupt worker.ticket) ∧ dispatch.Employs task job ↔
      (job ∈ jobs ∧ dispatch.Employs task job) ∧ (task = worker.task → job.isValidation) := by
  have obeys : job ∈ Job.obey jobs (.interrupt worker.ticket) ↔
      job ∈ jobs ∧ (job.isValidation ∨ job.ticket ≠ worker.ticket) := by
    simp [Job.obey]
  rw [obeys]
  constructor
  · rintro ⟨⟨live, spared⟩, other, member', rfl, ticket⟩
    refine ⟨⟨live, other, member', rfl, ticket⟩, fun same => spared.resolve_right ?_⟩
    exact not_not.mpr (ticket ▸ (manned.task_eq_iff member' member).mp same)
  · rintro ⟨⟨live, other, member', rfl, ticket⟩, spared⟩
    refine ⟨⟨live, ?_⟩, other, member', rfl, ticket⟩
    by_cases same : other.task = worker.task
    · exact .inl (spared same)
    · exact .inr (ticket ▸ fun equal => same ((manned.task_eq_iff member' member).mpr equal))

end Manned

/-- With one more worker, what it is employed for is added. -/
theorem employs_hire {dispatch : Dispatch} {worker : Worker} {task : TaskId} {job : Job} :
    ({ dispatch with workers := dispatch.workers ++ [worker] } : Dispatch).Employs task job ↔
      dispatch.Employs task job ∨ worker.task = task ∧ worker.ticket = job.ticket := by
  simp [Employs, or_and_right, exists_or]

end Dispatch

variable (herald : Herald State Result Fault Message)

/-- Holds if the tasks of an agenda do what has come of a history of its schedule: the live jobs are
those that are left when the commands that are due have been carried out.  Every task is on an
errand; one task may be busy, and then it is at no wait. -/
structure Agenda.Staffs (busy : Option TaskId) (errands : TaskId → Errand)
    (history : List Schedule.Happening) (jobs : List Job) (due : List ScheduleCommand)
    (agenda : Agenda State Result) : Prop where
  run : Schedule.Course.Run history
    ⟨(herald.get agenda.state).schedule, Job.obeyAll jobs due⟩
  /-- What was told, and will have been when the commands that are due have been carried out, is
  what the history had told. -/
  told : herald.told agenda.state ++ due.flatMap herald.tells =
    (history.filterMap Schedule.Happening.command?).flatMap herald.tells
  manned : (herald.get agenda.state).Manned jobs due agenda.tasks.size
  /-- A task is on the errand of the job that it was employed for, while this job lives. -/
  job_iff : ∀ task job, (errands task).job = some job ↔
    job ∈ jobs ∧ (herald.get agenda.state).Employs task job
  /-- What a task may interrupt does not work for the schedule. -/
  own_lt : ∀ task, ∀ child ∈ (errands task).own, child < agenda.tasks.size ∧
    ∀ worker ∈ (herald.get agenda.state).workers, worker.task ≠ child
  suits : ∀ task, busy ≠ some task →
    (errands task).Suits herald (herald.get agenda.state).schedule.cancelled (agenda.statusOf task)
  /-- Only tasks that an interruption does not end have deadlines. -/
  steady : ∀ deadline ∈ agenda.deadlines, deadline.owner < agenda.tasks.size ∧
    (errands deadline.owner).isSteady

namespace Agenda.Staffs

variable {herald} {busy : Option TaskId} {errands : TaskId → Errand}
  {history : List Schedule.Happening} {jobs : List Job} {due : List ScheduleCommand}
  {agenda other : Agenda State Result} {task : TaskId}

/-! ## What makes no difference -/

/-- Only the schedule with its workers, what was told, the number of tasks, their statuses and the
deadlines matter. -/
theorem change (staffs : agenda.Staffs herald busy errands history jobs due)
    (alike : herald.Alike other.state agenda.state)
    (size : other.tasks.size = agenda.tasks.size)
    (suits : ∀ task, busy ≠ some task →
      (errands task).Suits herald (herald.get agenda.state).schedule.cancelled
        (agenda.statusOf task) →
      (errands task).Suits herald (herald.get agenda.state).schedule.cancelled
        (other.statusOf task))
    (deadlines : ∀ deadline ∈ other.deadlines, deadline.owner < agenda.tasks.size ∧
      (errands deadline.owner).isSteady) :
    other.Staffs herald busy errands history jobs due where
  run := alike.1 ▸ staffs.run
  told := alike.2 ▸ staffs.told
  manned := by rw [alike.1, size]; exact staffs.manned
  job_iff := alike.1 ▸ staffs.job_iff
  own_lt := by rw [alike.1, size]; exact staffs.own_lt
  suits := by
    intro task different
    rw [alike.1]
    exact suits task different (staffs.suits task different)
  steady := by rwa [size]

theorem congr (staffs : agenda.Staffs herald busy errands history jobs due)
    (alike : herald.Alike other.state agenda.state) (tasks : other.tasks = agenda.tasks)
    (deadlines : other.deadlines = agenda.deadlines) :
    other.Staffs herald busy errands history jobs due := by
  refine staffs.change alike (by rw [tasks]) (fun task _ suits => ?_) ?_
  · rw [statusOf, tasks]
    exact suits
  · rw [deadlines]
    exact staffs.steady

/-- Waits may be over at any time. -/
theorem rouse (staffs : agenda.Staffs herald busy errands history jobs due)
    (rouses : agenda.Rouses other) : other.Staffs herald busy errands history jobs due := by
  refine staffs.change ?_ rouses.size (fun task _ suits => suits.rouse (rouses.statuses task)) ?_
  · rw [rouses.state]
    exact ⟨rfl, rfl⟩
  · rw [rouses.deadlines]
    exact staffs.steady

/-- A task whose errand goes on, or that is on none, may be interrupted. -/
theorem interrupt (staffs : agenda.Staffs herald busy errands history jobs due)
    (fits : (errands task).isSteady ∨ (errands task).job = none) :
    (agenda.interrupt task).Staffs herald busy errands history jobs due := by
  refine staffs.change ?_ (agenda.size_interrupt task) (fun another _ suits => ?_)
    (by rw [deadlines_interrupt]; exact staffs.steady)
  · rw [state_interrupt]
    exact ⟨rfl, rfl⟩
  · rw [statusOf_interrupt]
    split
    · next same =>
        subst same
        have kept : (errands another).interrupted = errands another := by
          refine Errand.interrupted_eq ?_
          rcases fits with steady | idle
          · exact (Bool.and_eq_true_iff.mp steady).2
          · rw [idle]; rfl
        rw [← kept]
        exact suits.interrupt (fits.imp_right fun idle job own => by rw [idle] at own; cases own)
    · exact suits

/-- A task that was busy is left at a status that suits its errand. -/
theorem leave (staffs : agenda.Staffs herald (some task) errands history jobs due)
    (known : task < agenda.tasks.size) {status : TaskStatus State Result}
    (suits : (errands task).Suits herald (herald.get agenda.state).schedule.cancelled status) :
    (agenda.setStatus task status).Staffs herald none errands history jobs due where
  run := staffs.run
  told := staffs.told
  manned := by rw [setStatus, Array.size_modify]; exact staffs.manned
  job_iff := staffs.job_iff
  own_lt := by rw [setStatus, Array.size_modify]; exact staffs.own_lt
  suits := by
    intro another _
    rw [agenda.statusOf_setStatus known]
    split
    · next same => exact same ▸ suits
    · next different =>
        exact staffs.suits another fun same => different (Option.some.inj same).symm
  steady := by rw [setStatus, Array.size_modify]; exact staffs.steady

/-- A task that takes its turn is busy. -/
theorem enter (staffs : agenda.Staffs herald none errands history jobs due) (task : TaskId) :
    agenda.Staffs herald (some task) errands history jobs due :=
  { staffs with suits := fun another _ => staffs.suits another (Option.some_ne_none _).symm }

/-! ## Jobs and workers -/

/-- Two tasks are not on the errand of one job. -/
theorem errand_unique (staffs : agenda.Staffs herald busy errands history jobs due)
    {first second : TaskId} {job : Job} (own : (errands first).job = some job)
    (own' : (errands second).job = some job) : first = second := by
  obtain ⟨-, worker, member, rfl, ticket⟩ := (staffs.job_iff first job).mp own
  obtain ⟨-, worker', member', rfl, ticket'⟩ := (staffs.job_iff second job).mp own'
  exact (staffs.manned.task_eq_iff member member').mpr (ticket.trans ticket'.symm)

/-- A task that none of the workers has is on the errand of no job. -/
theorem job_eq_none (staffs : agenda.Staffs herald busy errands history jobs due)
    (apart : ∀ worker ∈ (herald.get agenda.state).workers, worker.task ≠ task) :
    (errands task).job = none := by
  rw [Option.eq_none_iff_forall_ne_some]
  intro job own
  obtain ⟨-, worker, member, same, -⟩ := (staffs.job_iff task job).mp own
  exact apart worker member same

/-- Nobody works on an agenda on which all tasks have ended. -/
theorem initial {quietSeconds dependentSeconds : Float}
    (fresh : herald.get agenda.state =
      Dispatch.initial (Schedule.initial quietSeconds dependentSeconds))
    (untold : herald.told agenda.state = []) (ended : ∀ task, agenda.hasEnded task)
    (timeless : agenda.deadlines = #[]) :
    agenda.Staffs herald none (fun _ => Errand.none) [] [] [] := by
  have workers : (herald.get agenda.state).workers = [] := by rw [fresh]; rfl
  have tickets : (herald.get agenda.state).tickets [] = [] := by
    rw [Dispatch.tickets, workers]
    rfl
  refine ⟨?_, by rw [untold]; rfl, ⟨?_, ?_, ?_, ?_, nofun, nofun⟩, ?_, fun _ _ => nofun, ?_, ?_⟩
  · rw [fresh]
    exact .initial quietSeconds dependentSeconds
  · rw [tickets]
    exact List.nodup_nil
  · rw [tickets]
    exact fun _ => nofun
  · rw [workers]
    exact List.nodup_nil
  · rw [workers]
    exact fun _ => nofun
  · exact fun task job => ⟨nofun, fun own => absurd own.1 List.not_mem_nil⟩
  · intro task _
    obtain ⟨result, status⟩ := agenda.exists_of_hasEnded (ended task)
    rw [status]
    rfl
  · rw [timeless]
    exact fun _ => nofun

/-- **Every live job has a worker** whose task has not ended. -/
theorem exists_worker (staffs : agenda.Staffs herald none errands history jobs []) {job : Job}
    (live : job ∈ jobs) : ∃ worker ∈ (herald.get agenda.state).workers,
      worker.ticket = job.ticket ∧ ¬ agenda.hasEnded worker.task := by
  obtain ⟨worker, member, ticket⟩ := staffs.manned.employed job live
  refine ⟨worker, member, ticket, fun ended => ?_⟩
  have own := (staffs.job_iff worker.task job).mpr ⟨live, worker, member, rfl, ticket⟩
  have suits := staffs.suits worker.task (Option.some_ne_none _).symm
  obtain ⟨result, status⟩ := agenda.exists_of_hasEnded ended
  rw [status] at suits
  exact absurd (own.symm.trans suits) (Option.some_ne_none job)

/-! ## New tasks -/

/-- A task is started, perhaps for a job that begins. -/
theorem enroll (staffs : agenda.Staffs herald busy errands history jobs due)
    {child : Process State Result} {job : Option Job} {jobs' : List Job}
    {due' : List ScheduleCommand} (serves : ∀ after, child.Serves herald [] job [] after)
    (tasks : other.tasks = (agenda.start child).tasks)
    (deadlines : other.deadlines = agenda.deadlines)
    (schedule : (herald.get other.state).schedule = (herald.get agenda.state).schedule)
    (workers : ∀ worker ∈ (herald.get other.state).workers,
      worker ∈ (herald.get agenda.state).workers ∨ worker.task = agenda.tasks.size)
    (obeyed : Job.obeyAll jobs' due' = Job.obeyAll jobs due)
    (told : herald.told other.state ++ due'.flatMap herald.tells =
      herald.told agenda.state ++ due.flatMap herald.tells)
    (manned : (herald.get other.state).Manned jobs' due' (agenda.tasks.size + 1))
    (job_iff : ∀ task job',
      (Function.update errands agenda.tasks.size ⟨[], job, false⟩ task).job = some job' ↔
        job' ∈ jobs' ∧ (herald.get other.state).Employs task job') :
    other.Staffs herald busy (Function.update errands agenda.tasks.size ⟨[], job, false⟩) history
      jobs' due' := by
  have size : other.tasks.size = agenda.tasks.size + 1 := by
    rw [tasks, Agenda.start, Array.size_push]
  have new : ∀ another, another ≠ agenda.tasks.size →
      Function.update errands agenda.tasks.size ⟨[], job, false⟩ another = errands another :=
    fun another different => Function.update_of_ne different _ _
  refine ⟨?_, told.trans staffs.told, size ▸ manned, job_iff, ?_, ?_, ?_⟩
  · rw [schedule, obeyed]
    exact staffs.run
  · intro another child member
    rw [size]
    by_cases last : another = agenda.tasks.size
    · rw [last, Function.update_self] at member
      cases member
    · rw [new another last] at member
      obtain ⟨below, apart⟩ := staffs.own_lt another child member
      refine ⟨Nat.lt_succ_of_lt below, fun worker member => ?_⟩
      rcases workers worker member with old | hired
      · exact apart worker old
      · exact hired ▸ (Nat.ne_of_lt below).symm
  · intro another idle
    rw [schedule, statusOf, tasks, ← statusOf, statusOf_start]
    by_cases last : another = agenda.tasks.size
    · rw [last, Function.update_self, if_pos rfl]
      exact ⟨serves, rfl⟩
    · rw [new another last, if_neg last]
      exact staffs.suits another idle
  · rw [deadlines, size]
    intro deadline member
    obtain ⟨below, steady⟩ := staffs.steady deadline member
    rw [new _ (Nat.ne_of_lt below)]
    exact ⟨Nat.lt_succ_of_lt below, steady⟩

/-- A task is started that has nothing to do with the schedule. -/
theorem start (staffs : agenda.Staffs herald busy errands history jobs due)
    {child : Process State Result} (serves : ∀ after, child.Serves herald [] none [] after) :
    (agenda.start child).Staffs herald busy
      (Function.update errands agenda.tasks.size ⟨[], none, false⟩) history jobs due := by
  refine staffs.enroll serves rfl rfl rfl (fun worker => .inl) rfl rfl ?_ fun another job => ?_
  · exact { staffs.manned with
      task_lt := fun worker member => Nat.lt_succ_of_lt (staffs.manned.task_lt worker member) }
  · by_cases last : another = agenda.tasks.size
    · rw [last, Function.update_self]
      exact ⟨nofun, fun employed => (staffs.manned.not_employs_size job employed.2).elim⟩
    · rw [Function.update_of_ne last]
      exact staffs.job_iff another job

/-- A worker is hired for the work that a command begins. -/
theorem hire {command : ScheduleCommand} {job : Job} {token : Option TokenId}
    (staffs : agenda.Staffs herald busy errands history jobs (command :: due))
    (begins : command.begun? = some job.ticket) (obeys : Job.obey jobs command = jobs ++ [job])
    (silent : herald.tells command = []) {child : Process State Result}
    (serves : ∀ after, child.Serves herald [] (some job) [] after)
    (tasks : other.tasks = (agenda.start child).tasks)
    (deadlines : other.deadlines = agenda.deadlines)
    (told : herald.told other.state = herald.told agenda.state)
    (get : herald.get other.state = { herald.get agenda.state with
      workers := (herald.get agenda.state).workers ++ [⟨job.ticket, agenda.tasks.size, token⟩] }) :
    other.Staffs herald busy
      (Function.update errands agenda.tasks.size ⟨[], some job, false⟩) history (jobs ++ [job])
      due := by
  have manned := staffs.manned
  refine staffs.enroll serves tasks deadlines (by rw [get]) ?_ ?_ ?_ ?_ ?_
  · rw [get]
    intro worker member
    exact (List.mem_append.mp member).imp_right fun last => by rw [List.mem_singleton.mp last]
  · rw [Job.obeyAll_cons, obeys]
  · rw [told, List.flatMap_cons, silent, List.nil_append]
  · rw [get]
    exact manned.hire begins obeys
  · intro another live
    rw [get, Dispatch.employs_hire, List.mem_append, List.mem_singleton]
    by_cases last : another = agenda.tasks.size
    · rw [last, Function.update_self]
      constructor
      · rintro ⟨⟩
        exact ⟨.inr rfl, .inr ⟨rfl, rfl⟩⟩
      · rintro ⟨old | rfl, employed | ⟨-, ticket⟩⟩
        · exact (manned.not_employs_size live employed).elim
        · obtain ⟨worker, member, same⟩ := manned.employed live old
          exact absurd (same.trans ticket.symm) (manned.ticket_ne begins member)
        · rfl
        · rfl
    · rw [Function.update_of_ne last, staffs.job_iff]
      constructor
      · exact fun own => ⟨.inl own.1, .inl own.2⟩
      · rintro ⟨old | rfl, employed | ⟨same, -⟩⟩
        · exact ⟨old, employed⟩
        · exact absurd same.symm last
        · exact absurd employed (manned.not_employs begins another)
        · exact absurd same.symm last

/-! ## Commands that need no new task -/

/-- A command that begins nothing and leaves the jobs alone is carried out when it has been told. -/
theorem skip {command : ScheduleCommand}
    (staffs : agenda.Staffs herald busy errands history jobs (command :: due))
    (begins : command.begun? = none) (obeys : Job.obey jobs command = jobs)
    (get : herald.get other.state = herald.get agenda.state)
    (told : herald.told other.state = herald.told agenda.state ++ herald.tells command)
    (tasks : other.tasks = agenda.tasks) (deadlines : other.deadlines = agenda.deadlines) :
    other.Staffs herald busy errands history jobs due := by
  have run := staffs.run
  have telling := staffs.told
  rw [Job.obeyAll_cons, obeys] at run
  rw [List.flatMap_cons, ← List.append_assoc, ← told] at telling
  exact {
    run := get ▸ run
    told := telling
    manned := by rw [get, tasks]; exact staffs.manned.skip begins obeys
    job_iff := get ▸ staffs.job_iff
    own_lt := by rw [get, tasks]; exact staffs.own_lt
    suits := by
      intro another idle
      rw [get, statusOf, tasks]
      exact staffs.suits another idle
    steady := by rw [deadlines, tasks]; exact staffs.steady }

/-- The task of a worker is interrupted as a command asks for: a quiet period ends, and a validation
was cancelled before. -/
theorem dismiss {worker : Worker}
    (staffs : agenda.Staffs herald busy errands history jobs (.interrupt worker.ticket :: due))
    (member : worker ∈ (herald.get agenda.state).workers) :
    (agenda.interrupt worker.task).Staffs herald busy
      (Function.update errands worker.task (errands worker.task).interrupted) history
      (Job.obey jobs (.interrupt worker.ticket)) due := by
  have manned := staffs.manned
  have others : ∀ another, another ≠ worker.task → Function.update errands worker.task
      (errands worker.task).interrupted another = errands another :=
    fun another different => Function.update_of_ne different _ _
  refine ⟨?_, ?_, ?_, ?_, ?_, ?_, ?_⟩
  · rw [state_interrupt]
    exact staffs.run
  · rw [state_interrupt]
    exact staffs.told
  · rw [state_interrupt, size_interrupt]
    exact { manned with
      employed := fun job live => manned.employed job (List.mem_of_mem_filter live)
      cancels := fun job live interrupts =>
        manned.cancels job live (List.mem_cons_of_mem _ interrupts) }
  · intro another job
    rw [state_interrupt, manned.employs_interrupt_iff member, ← staffs.job_iff]
    by_cases same : another = worker.task
    · rw [same, Function.update_self]
      exact Option.filter_eq_some_iff.trans
        (and_congr_right fun _ => ⟨fun validates _ => validates, fun spared => spared rfl⟩)
    · rw [others another same]
      exact (and_iff_left fun equal => absurd equal same).symm
  · intro another child mine
    rw [state_interrupt, size_interrupt]
    refine staffs.own_lt another child ?_
    by_cases same : another = worker.task
    · rw [same, Function.update_self] at mine
      exact same ▸ mine
    · rwa [others another same] at mine
  · intro another idle
    rw [state_interrupt, statusOf_interrupt]
    by_cases same : another = worker.task
    · subst same
      rw [Function.update_self, if_pos rfl]
      refine (staffs.suits _ idle).interrupt (.inr fun job own validates => ?_)
      obtain ⟨live, other, member', same, ticket⟩ := (staffs.job_iff _ job).mp own
      have ticketEq := (manned.task_eq_iff member' member).mp same
      obtain ⟨number, uri, version, rfl⟩ := Job.exists_eq_of_isValidation validates
      refine manned.cancels _ (Job.validation_mem_obeyAll _ live) ?_ validates
      rw [← ticket, ticketEq]
      exact List.mem_cons_self
    · rw [others another same, if_neg same]
      exact staffs.suits another idle
  · intro deadline set
    rw [size_interrupt]
    rw [deadlines_interrupt] at set
    obtain ⟨below, steady⟩ := staffs.steady deadline set
    refine ⟨below, ?_⟩
    by_cases same : deadline.owner = worker.task
    · rw [same] at steady
      rw [same, Function.update_self, Errand.interrupted_eq (Bool.and_eq_true_iff.mp steady).2]
      exact steady
    · rw [others _ same]
      exact steady

/-- Nothing is to be interrupted for a ticket that nobody works for. -/
theorem unmanned {ticket : Ticket}
    (staffs : agenda.Staffs herald busy errands history jobs (.interrupt ticket :: due))
    (nobody : ∀ worker ∈ (herald.get agenda.state).workers, worker.ticket ≠ ticket) :
    agenda.Staffs herald busy errands history (Job.obey jobs (.interrupt ticket)) due := by
  have obeyed : Job.obey jobs (.interrupt ticket) = jobs := by
    refine List.filter_eq_self.mpr fun job live => ?_
    obtain ⟨worker, member, same⟩ := staffs.manned.employed job live
    simp only [Bool.or_eq_true, decide_eq_true_eq]
    exact .inr (same ▸ nobody worker member)
  rw [obeyed]
  exact staffs.skip rfl obeyed rfl (List.append_nil _).symm rfl rfl

/-! ## The busy task -/

/-- The busy task may be sent on another errand, where it may be interrupted if it could before. -/
theorem reassign (staffs : agenda.Staffs herald (some task) errands history jobs due)
    {errand : Errand} {history' : List Schedule.Happening} {left : List Job}
    {due' : List ScheduleCommand} (tasks : other.tasks = agenda.tasks)
    (deadlines : other.deadlines = agenda.deadlines)
    (workers : (herald.get other.state).workers = (herald.get agenda.state).workers)
    (cancelled : (herald.get agenda.state).schedule.cancelled ⊆
      (herald.get other.state).schedule.cancelled)
    (run : Schedule.Course.Run history'
      ⟨(herald.get other.state).schedule, Job.obeyAll left due'⟩)
    (told : herald.told other.state ++ due'.flatMap herald.tells =
      (history'.filterMap Schedule.Happening.command?).flatMap herald.tells)
    (manned : (herald.get other.state).Manned left due' agenda.tasks.size)
    (job_iff : ∀ another job, (Function.update errands task errand another).job = some job ↔
      job ∈ left ∧ (herald.get agenda.state).Employs another job)
    (own_lt : ∀ child ∈ errand.own, child < agenda.tasks.size ∧
      ∀ worker ∈ (herald.get agenda.state).workers, worker.task ≠ child)
    (steady : (errands task).isSteady → errand.isSteady) :
    other.Staffs herald (some task) (Function.update errands task errand) history' left due' := by
  have others : ∀ another, another ≠ task →
      Function.update errands task errand another = errands another :=
    fun another different => Function.update_of_ne different _ _
  refine ⟨run, told, tasks ▸ manned, ?_, ?_, ?_, ?_⟩
  · intro another job
    rw [job_iff, Dispatch.Employs, Dispatch.Employs, workers]
  · intro another child mine
    rw [workers, tasks]
    by_cases same : another = task
    · rw [same, Function.update_self] at mine
      exact own_lt child mine
    · rw [others another same] at mine
      exact staffs.own_lt another child mine
  · intro another idle
    rw [statusOf, tasks, ← statusOf, others another fun same => idle (congrArg some same.symm)]
    exact (staffs.suits another idle).mono cancelled
  · intro deadline set
    rw [tasks]
    rw [deadlines] at set
    obtain ⟨below, before⟩ := staffs.steady deadline set
    refine ⟨below, ?_⟩
    by_cases same : deadline.owner = task
    · rw [same] at before
      rw [same, Function.update_self]
      exact steady before
    · rw [others _ same]
      exact before

/-- The jobs of the tasks stay what they are where the busy task keeps its own. -/
theorem job_iff_update (staffs : agenda.Staffs herald busy errands history jobs due)
    {errand : Errand} (kept : errand.job = (errands task).job) (another : TaskId) (job : Job) :
    (Function.update errands task errand another).job = some job ↔
      job ∈ jobs ∧ (herald.get agenda.state).Employs another job := by
  rw [← staffs.job_iff]
  by_cases same : another = task
  · rw [same, Function.update_self, kept]
  · rw [Function.update_of_ne same]

/-- The busy task may interrupt a task that does not work for the schedule. -/
theorem own (staffs : agenda.Staffs herald (some task) errands history jobs due) {child : TaskId}
    (below : child < agenda.tasks.size)
    (apart : ∀ worker ∈ (herald.get agenda.state).workers, worker.task ≠ child) :
    agenda.Staffs herald (some task) (Function.update errands task
      { errands task with own := child :: (errands task).own }) history jobs due := by
  refine staffs.reassign rfl rfl rfl (List.Subset.refl _) staffs.run staffs.told staffs.manned
    (staffs.job_iff_update rfl) ?_ id
  intro other mine
  rcases List.mem_cons.mp mine with rfl | mine
  · exact ⟨below, apart⟩
  · exact staffs.own_lt task other mine

/-- A task that is busy has begun. -/
theorem begin (staffs : agenda.Staffs herald (some task) errands history jobs due) :
    agenda.Staffs herald (some task) (Function.update errands task
      { errands task with hasBegun := true }) history jobs due := by
  refine staffs.reassign rfl rfl rfl (List.Subset.refl _) staffs.run staffs.told staffs.manned
    (staffs.job_iff_update rfl) (staffs.own_lt task) fun steady => ?_
  exact Bool.and_eq_true_iff.mpr ⟨rfl, (Bool.and_eq_true_iff.mp steady).2⟩

/-- Without the job of a task the jobs of the others stay what they are. -/
theorem job_iff_erase (staffs : agenda.Staffs herald busy errands history jobs due) {job : Job}
    (once : jobs.Nodup) (own : (errands task).job = some job) (another : TaskId) (other : Job) :
    (Function.update errands task (errands task).idle another).job = some other ↔
      other ∈ jobs.erase job ∧ (herald.get agenda.state).Employs another other := by
  rw [once.mem_erase_iff]
  by_cases same : another = task
  · subst same
    rw [Function.update_self]
    constructor
    · nofun
    · rintro ⟨⟨different, live⟩, employed⟩
      have held := (staffs.job_iff another other).mpr ⟨live, employed⟩
      rw [own] at held
      exact absurd (Option.some.inj held).symm different
  · rw [Function.update_of_ne same, staffs.job_iff]
    constructor
    · rintro ⟨live, employed⟩
      refine ⟨⟨?_, live⟩, employed⟩
      rintro rfl
      exact same (staffs.errand_unique ((staffs.job_iff another other).mpr ⟨live, employed⟩) own)
    · exact fun kept => ⟨kept.1.2, kept.2⟩

/-- A cancelled validation may be lost without a report. -/
theorem lose (staffs : agenda.Staffs herald (some task) errands history jobs []) {job : Job}
    (own : (errands task).job = some job) (validates : job.isValidation)
    (cancelled : job.ticket ∈ (herald.get agenda.state).schedule.cancelled) :
    agenda.Staffs herald (some task) (Function.update errands task (errands task).idle) history
      (jobs.erase job) [] := by
  have run : Schedule.Course.Run history ⟨(herald.get agenda.state).schedule, jobs⟩ := staffs.run
  have manned := staffs.manned
  refine staffs.reassign rfl rfl rfl (List.Subset.refl _) ?_ staffs.told ?_
    (staffs.job_iff_erase run.sound.nodup_jobs own) (staffs.own_lt task) Errand.isSteady_idle
  · obtain ⟨ticket, uri, version, rfl⟩ := Job.exists_eq_of_isValidation validates
    exact run.lose cancelled uri version
  · exact { manned with
      employed := fun other live => manned.employed other (List.mem_of_mem_erase live)
      cancels := fun _ _ => nofun }

end Agenda.Staffs

end ModelAssist
