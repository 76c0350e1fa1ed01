import Mathlib.Data.List.Nodup
import ModelAssist.Schedule.Basic

/-!
# Courses of a schedule

A schedule together with the jobs that it started and that have still to report back.  A request may
come at any time, and any job may report next.  A quiet period that is interrupted never reports,
while a validation that is cancelled or interrupted may still end in any way, or not at all.

The invariant of a course is `Schedule.Course.Sound`: what the schedule remembers of its quiet
periods and of its validations are exactly the jobs, cancelled validations apart.  Every step keeps
it (`Schedule.Course.Step.sound`).
-/

namespace ModelAssist

/-- Holds of the events that come from outside, at any time. -/
def ScheduleEvent.IsRequest : ScheduleEvent → Prop
  | .schedule _ _ | .scheduleDependents _ | .start _ | .close _ | .shutdown => True
  | .quiet _ _ | .dependentsQuiet | .ended _ _ _ _ => False

/-- Holds of the commands that start a validation or cancel the one before. -/
def ScheduleCommand.Restarts : ScheduleCommand → Prop
  | .validate _ _ _ | .cancel _ _ => True
  | _ => False

/-- The diagnostics that a validation is to show; none are shown of one that gave up. -/
def ValidationEnd.shown? : ValidationEnd → Option (List Diagnostic)
  | .diagnostics found => some found
  | .broken | .failed _ => some []
  | .cancelled | .interrupted => none

namespace Schedule

/-- Something that a schedule started and that has still to report back. -/
inductive Job where
  | quiet (ticket : Ticket) (uri : String)
  | dependentsQuiet (ticket : Ticket)
  | validation (ticket : Ticket) (uri : String) (version : Int)
deriving DecidableEq

namespace Job

def ticket : Job → Ticket
  | .quiet ticket _ => ticket
  | .dependentsQuiet ticket => ticket
  | .validation ticket _ _ => ticket

def isValidation : Job → Bool
  | .validation _ _ _ => true
  | _ => false

/-- What validates is a validation. -/
theorem exists_eq_of_isValidation {job : Job} (validates : job.isValidation) :
    ∃ ticket uri version, job = .validation ticket uri version := by
  cases job with
  | validation ticket uri version => exact ⟨ticket, uri, version, rfl⟩
  | quiet _ _ => cases validates
  | dependentsQuiet _ => cases validates

/-- The events by which a job may report back: a quiet period that it is over, and a validation how
it ended. -/
inductive Reports : Job → ScheduleEvent → Prop
  | quiet (ticket : Ticket) (uri : String) : Reports (.quiet ticket uri) (.quiet ticket uri)
  | dependentsQuiet (ticket : Ticket) : Reports (.dependentsQuiet ticket) .dependentsQuiet
  | validation (ticket : Ticket) (uri : String) (version : Int) (ending : ValidationEnd) :
      Reports (.validation ticket uri version) (.ended ticket uri version ending)

/-- The jobs after a command was carried out.  An interrupted quiet period is gone; an interrupted
validation may still report how it ended. -/
def obey (jobs : List Job) : ScheduleCommand → List Job
  | .awaitQuiet ticket uri _ => jobs ++ [.quiet ticket uri]
  | .awaitDependentsQuiet ticket _ => jobs ++ [.dependentsQuiet ticket]
  | .validate ticket uri version => jobs ++ [.validation ticket uri version]
  | .interrupt ticket => jobs.filter fun job => job.isValidation || job.ticket ≠ ticket
  | _ => jobs

/-- The jobs after some commands were carried out in order. -/
def obeyAll (jobs : List Job) (commands : List ScheduleCommand) : List Job :=
  commands.foldl obey jobs

@[simp] theorem obeyAll_nil (jobs : List Job) : obeyAll jobs [] = jobs := rfl

@[simp] theorem obeyAll_cons (jobs : List Job) (command : ScheduleCommand)
    (rest : List ScheduleCommand) :
    obeyAll jobs (command :: rest) = obeyAll (obey jobs command) rest := rfl

/-- Commands given in two goes are obeyed like all of them in one. -/
theorem obeyAll_append (jobs : List Job) (first second : List ScheduleCommand) :
    obeyAll jobs (first ++ second) = obeyAll (obeyAll jobs first) second :=
  List.foldl_append

@[simp] theorem obeyAll_cancel (jobs : List Job) (reason : String) (tickets : List Ticket) :
    obeyAll jobs (tickets.map (.cancel · reason)) = jobs := by
  induction tickets with
  | nil => rfl
  | cons ticket rest ih => exact ih

@[simp] theorem obeyAll_warn (jobs : List Job) (messages : List String) :
    obeyAll jobs (messages.map .warn) = jobs := by
  induction messages with
  | nil => rfl
  | cons message rest ih => exact ih

/-- Only the command to validate starts a validation. -/
theorem validation_mem_of_obeyAll {jobs : List Job} {commands : List ScheduleCommand}
    (starts : ∀ ticket uri version, .validate ticket uri version ∉ commands)
    {ticket : Ticket} {uri : String} {version : Int}
    (live : validation ticket uri version ∈ obeyAll jobs commands) :
    validation ticket uri version ∈ jobs := by
  induction commands generalizing jobs with
  | nil => exact live
  | cons command rest ih =>
      have obeyed := ih (fun number other started member =>
        starts number other started (List.mem_cons_of_mem _ member)) live
      cases command with
      | validate number other started =>
          exact absurd List.mem_cons_self (starts number other started)
      | awaitQuiet _ _ _ => simpa [obey] using obeyed
      | awaitDependentsQuiet _ _ => simpa [obey] using obeyed
      | interrupt _ => exact List.mem_of_mem_filter obeyed
      | cancel _ _ => exact obeyed
      | publish _ _ _ => exact obeyed
      | warn _ => exact obeyed

/-- Of the interrupted jobs the validations are left. -/
theorem mem_obeyAll_interrupt {jobs : List Job} {tickets : List Ticket} {job : Job} :
    job ∈ obeyAll jobs (tickets.map .interrupt) ↔
      job ∈ jobs ∧ (job.isValidation = true ∨ job.ticket ∉ tickets) := by
  induction tickets generalizing jobs with
  | nil => simp
  | cons ticket rest ih =>
      rw [List.map_cons, obeyAll_cons, ih]
      simp only [obey, List.mem_filter, Bool.or_eq_true, decide_eq_true_eq, List.mem_cons, not_or]
      tauto

/-- Interrupts only take jobs away, and keep the order of the rest. -/
theorem obeyAll_interrupt_sublist (jobs : List Job) (tickets : List Ticket) :
    (obeyAll jobs (tickets.map .interrupt)).Sublist jobs := by
  induction tickets generalizing jobs with
  | nil => exact List.Sublist.refl jobs
  | cons ticket rest ih => exact (ih _).trans List.filter_sublist

end Job

private theorem foldl_start (around : Surroundings) (uris : List String) (schedule : Schedule)
    (commands : List ScheduleCommand) :
    uris.foldl
        (fun (schedule, commands) uri =>
          let (schedule, further) := schedule.start around uri
          (schedule, commands ++ further))
        (schedule, commands) =
      ((startAll around schedule uris).1, commands ++ (startAll around schedule uris).2) := by
  induction uris generalizing schedule commands with
  | nil => simp [startAll]
  | cons uri rest ih =>
      simp only [startAll, List.foldl_cons, List.nil_append]
      rw [ih, ih _ (schedule.start around uri).2, List.append_assoc]

/-- Starting several validations starts the first and then, from there, the others. -/
theorem startAll_cons (around : Surroundings) (schedule : Schedule) (uri : String)
    (rest : List String) :
    startAll around schedule (uri :: rest) =
      ((startAll around (schedule.start around uri).1 rest).1,
        (schedule.start around uri).2 ++
          (startAll around (schedule.start around uri).1 rest).2) := by
  rw [startAll, List.foldl_cons]
  exact foldl_start around rest _ _

/-- To start a validation takes nothing else than to cancel the one before. -/
theorem restarts_of_mem_start {around : Surroundings} {schedule : Schedule} {uri : String}
    {command : ScheduleCommand} (member : command ∈ (schedule.start around uri).2) :
    command.Restarts := by
  unfold start at member
  split at member
  · cases member
  · rcases List.mem_append.mp member with cancels | starts
    · obtain ⟨ticket, -, rfl⟩ := List.mem_map.mp cancels
      trivial
    · rw [List.mem_singleton.mp starts]
      trivial

/-- To start several validations takes nothing else than to cancel those before. -/
theorem restarts_of_mem_startAll {around : Surroundings} {schedule : Schedule} {uris : List String}
    {command : ScheduleCommand} (member : command ∈ (startAll around schedule uris).2) :
    command.Restarts := by
  induction uris generalizing schedule with
  | nil => cases member
  | cons uri rest ih =>
      rw [startAll_cons] at member
      rcases List.mem_append.mp member with first | others
      · exact restarts_of_mem_start first
      · exact ih others

section LeaveRunning

variable (schedule : Schedule) (ticket : Ticket) (uri : String)

@[simp] theorem leaveRunning_cancelled :
    (schedule.leaveRunning ticket uri).cancelled = schedule.cancelled := by
  unfold leaveRunning
  split <;> rfl

@[simp] theorem leaveRunning_pending :
    (schedule.leaveRunning ticket uri).pending = schedule.pending := by
  unfold leaveRunning
  split <;> rfl

@[simp] theorem leaveRunning_dependentsTimer :
    (schedule.leaveRunning ticket uri).dependentsTimer = schedule.dependentsTimer := by
  unfold leaveRunning
  split <;> rfl

@[simp] theorem leaveRunning_nextTicket :
    (schedule.leaveRunning ticket uri).nextTicket = schedule.nextTicket := by
  unfold leaveRunning
  split <;> rfl

/-- Leaving the running validations keeps their documents distinct. -/
theorem nodup_keys_leaveRunning (distinct : schedule.running.keys.Nodup) :
    (schedule.leaveRunning ticket uri).running.keys.Nodup := by
  unfold leaveRunning
  split
  · exact OrderedMap.nodup_keys_erase distinct uri
  · exact distinct

end LeaveRunning

/-- Diagnostics are shown only of a validation that was not cancelled, and only while the document
is at its version. -/
theorem show?_cases (around : Surroundings) (schedule : Schedule) (ticket : Ticket) (uri : String)
    (version : Int) (found : List Diagnostic) :
    show? around schedule ticket uri version found = [] ∨
      show? around schedule ticket uri version found = [.publish uri found (some version)] ∧
        ticket ∉ schedule.cancelled ∧ around.versionOf uri = some version := by
  unfold show?
  split
  · exact Or.inl rfl
  · next current =>
      simp only [Bool.or_eq_true, List.contains_iff_mem, ne_eq, decide_not, Bool.not_eq_true',
        decide_eq_false_iff_not, not_or, not_not] at current
      exact Or.inr ⟨rfl, current⟩

/-- What the end of a validation comes to: warnings, and then its diagnostics if it was not
cancelled and the document is still at its version. -/
theorem finish_cases (around : Surroundings) (schedule : Schedule) (ticket : Ticket) (uri : String)
    (version : Int) (ending : ValidationEnd) :
    ∃ (warned : List FailureKind) (warnings : List String) (shown : List ScheduleCommand),
      schedule.finish around ticket uri version ending =
        ({ schedule.leaveRunning ticket uri with warned }, warnings.map .warn ++ shown) ∧
      (shown = [] ∨ ∃ found, shown = [.publish uri found (some version)] ∧
        ending.shown? = some found ∧ ticket ∉ schedule.cancelled ∧
        around.versionOf uri = some version) := by
  let after := schedule.leaveRunning ticket uri
  have showing : ∀ warned found, ending.shown? = some found →
      show? around { after with warned } ticket uri version found = [] ∨
        ∃ found', show? around { after with warned } ticket uri version found =
            [.publish uri found' (some version)] ∧
          ending.shown? = some found' ∧ ticket ∉ schedule.cancelled ∧
          around.versionOf uri = some version := by
    intro warned found ended
    rcases show?_cases around { after with warned } ticket uri version found with
      nothing | ⟨shown, uncancelled, current⟩
    · exact Or.inl nothing
    · change ticket ∉ after.cancelled at uncancelled
      rw [leaveRunning_cancelled schedule ticket uri] at uncancelled
      exact Or.inr ⟨found, shown, ended, uncancelled, current⟩
  cases ending with
  | interrupted => exact ⟨after.warned, [], [], rfl, Or.inl rfl⟩
  | cancelled => exact ⟨after.warned, [], [], rfl, Or.inl rfl⟩
  | diagnostics found => exact ⟨after.warned, [], _, rfl, showing after.warned found rfl⟩
  | broken => exact ⟨after.warned, [], _, rfl, showing after.warned [] rfl⟩
  | failed failure =>
      by_cases told : after.warned.contains failure.kind
      · refine ⟨after.warned, [], _, ?_, showing after.warned [] rfl⟩
        simp only [finish, tell, told, ↓reduceIte, after]
        rfl
      · refine ⟨after.warned ++ [failure.kind], [failure.message], _, ?_,
          showing (after.warned ++ [failure.kind]) [] rfl⟩
        simp only [finish, tell, told, after]
        rfl

/-- The end of a validation starts and stops nothing. -/
theorem Job.obeyAll_finish (around : Surroundings) (schedule : Schedule) (ticket : Ticket)
    (uri : String) (version : Int) (ending : ValidationEnd) (jobs : List Job) :
    Job.obeyAll jobs (schedule.finish around ticket uri version ending).2 = jobs := by
  obtain ⟨warned, warnings, shown, finishEq, shows⟩ :=
    finish_cases around schedule ticket uri version ending
  rw [finishEq, Job.obeyAll_append, Job.obeyAll_warn]
  rcases shows with rfl | ⟨found, rfl, _⟩ <;> rfl

/-- A schedule with the jobs that have still to report back. -/
structure Course where
  schedule : Schedule
  jobs : List Job

namespace Course

/-- The course in which nothing is going on. -/
def initial (quietSeconds dependentSeconds : Float) : Course :=
  ⟨Schedule.initial quietSeconds dependentSeconds, []⟩

/-- The course after its schedule changed and the commands that came with this were carried out. -/
def adopt (course : Course) (change : Schedule × List ScheduleCommand) : Course :=
  ⟨change.1, Job.obeyAll course.jobs change.2⟩

def react (around : Surroundings) (course : Course) (event : ScheduleEvent) : Course :=
  course.adopt (course.schedule.handle around event)

def drop (course : Course) (job : Job) : Course :=
  { course with jobs := course.jobs.erase job }

/-- Starts are adopted one after another. -/
theorem adopt_startAll_cons (course : Course) (around : Surroundings) (uri : String)
    (rest : List String) :
    course.adopt (startAll around course.schedule (uri :: rest)) =
      (course.adopt (course.schedule.start around uri)).adopt
        (startAll around (course.adopt (course.schedule.start around uri)).schedule rest) := by
  rw [startAll_cons]
  simp only [adopt, Job.obeyAll_append]

/-- One step of a course: a request comes in, or a job reports back and is done with. -/
inductive Step (around : Surroundings) : Course → ScheduleEvent → Course → Prop
  | request (course : Course) {event : ScheduleEvent} (asked : event.IsRequest) :
      Step around course event (course.react around event)
  | report (course : Course) {job : Job} (live : job ∈ course.jobs) {event : ScheduleEvent}
      (reports : job.Reports event) :
      Step around course event ((course.drop job).react around event)

/-- What holds between a schedule and its jobs in every course. -/
structure Sound (course : Course) : Prop where
  ticket_lt : ∀ job ∈ course.jobs, job.ticket < course.schedule.nextTicket
  /-- Only numbers that were given before are cancelled. -/
  cancelled_lt : ∀ ticket ∈ course.schedule.cancelled, ticket < course.schedule.nextTicket
  distinct : (course.jobs.map Job.ticket).Nodup
  /-- The pending documents are those in a quiet period. -/
  pending_iff : ∀ uri ticket,
    course.schedule.pending.get? uri = some ticket ↔ Job.quiet ticket uri ∈ course.jobs
  /-- The remembered shared period is the one that has still to end. -/
  timer_iff : ∀ ticket,
    course.schedule.dependentsTimer = some ticket ↔ Job.dependentsQuiet ticket ∈ course.jobs
  /-- The remembered validations are those that were not cancelled and have still to end. -/
  running_iff : ∀ uri ticket,
    course.schedule.running.get? uri = some ticket ↔
      ticket ∉ course.schedule.cancelled ∧
        ∃ version, Job.validation ticket uri version ∈ course.jobs
  running_nodup : course.schedule.running.keys.Nodup

namespace Sound

variable {course : Course} (sound : course.Sound)
include sound

/-- A ticket names one live job. -/
theorem job_eq {first second : Job} (firstLive : first ∈ course.jobs)
    (secondLive : second ∈ course.jobs) (same : first.ticket = second.ticket) : first = second :=
  List.inj_on_of_nodup_map sound.distinct firstLive secondLive same

/-- The next ticket is held by no live job. -/
theorem ticket_ne_next {job : Job} (live : job ∈ course.jobs) :
    job.ticket ≠ course.schedule.nextTicket :=
  Nat.ne_of_lt (sound.ticket_lt job live)

theorem nodup_jobs : course.jobs.Nodup :=
  List.Nodup.of_map _ sound.distinct

/-- A job with the next ticket can join any of the live jobs without a clash. -/
theorem distinct_append {job : Job} (next : job.ticket = course.schedule.nextTicket)
    {kept : List Job} (older : kept.Sublist course.jobs) :
    ((kept ++ [job]).map Job.ticket).Nodup := by
  rw [List.map_append, List.nodup_append]
  refine ⟨(older.map _).nodup sound.distinct, by simp, ?_⟩
  rintro ticket member _ last rfl
  obtain ⟨other, live, rfl⟩ := List.mem_map.mp member
  rw [List.map_singleton, List.mem_singleton, next] at last
  exact sound.ticket_ne_next (older.subset live) last

/-- With a job of the next ticket added, every ticket still lies below the next one but one. -/
theorem ticket_lt_append {job : Job} (next : job.ticket = course.schedule.nextTicket)
    {kept : List Job} (older : kept.Sublist course.jobs) :
    ∀ other ∈ kept ++ [job], other.ticket < course.schedule.nextTicket + 1 := by
  intro other member
  rcases List.mem_append.mp member with live | last
  · exact Nat.lt_succ_of_lt (sound.ticket_lt other (older.subset live))
  · rw [List.mem_singleton.mp last, next]
    exact Nat.lt_succ_self _

/-- The interruption of the quiet periods of some kind leaves the other jobs. -/
theorem mem_interrupt {tickets : List Ticket} {quiet : Ticket → Job}
    (own : ∀ ticket, (quiet ticket).ticket = ticket)
    (unvalidating : ∀ ticket, (quiet ticket).isValidation = false)
    (live : ∀ ticket, ticket ∈ tickets ↔ quiet ticket ∈ course.jobs) {job : Job} :
    job ∈ Job.obeyAll course.jobs (tickets.map .interrupt) ↔
      job ∈ course.jobs ∧ ∀ ticket, job ≠ quiet ticket := by
  rw [Job.mem_obeyAll_interrupt, and_congr_right_iff]
  intro there
  constructor
  · rintro (validates | apart) ticket rfl
    · rw [unvalidating] at validates
      cases validates
    · rw [own] at apart
      exact apart ((live ticket).mpr there)
  · intro different
    refine Or.inr fun interrupted => different job.ticket ?_
    exact sound.job_eq there ((live job.ticket).mp interrupted) (own job.ticket).symm

/-- Interrupting the timer a document waits for ends every quiet job of that document and no other
job. -/
theorem mem_interrupt_pending {uri : String} {job : Job} :
    job ∈ Job.obeyAll course.jobs ((course.schedule.pending.get? uri).toList.map .interrupt) ↔
      job ∈ course.jobs ∧ ∀ ticket, job ≠ .quiet ticket uri :=
  sound.mem_interrupt (fun _ => rfl) (fun _ => rfl) fun ticket => by
    rw [Option.mem_toList, sound.pending_iff]

/-- Interrupting the timer of the dependents ends every quiet job of theirs and no other job. -/
theorem mem_interrupt_timer {job : Job} :
    job ∈ Job.obeyAll course.jobs (course.schedule.dependentsTimer.toList.map .interrupt) ↔
      job ∈ course.jobs ∧ ∀ ticket, job ≠ .dependentsQuiet ticket :=
  sound.mem_interrupt (fun _ => rfl) (fun _ => rfl) fun ticket => by
    rw [Option.mem_toList, sound.timer_iff]

/-- What is remembered of validations when that of a document is cancelled. -/
theorem running_erase_iff (uri other : String) (ticket : Ticket) :
    (course.schedule.running.erase uri).get? other = some ticket ↔
      ticket ∉ course.schedule.cancelled ++ (course.schedule.running.get? uri).toList ∧
        ∃ version, Job.validation ticket other version ∈ course.jobs := by
  simp only [OrderedMap.get?_erase, List.mem_append, Option.mem_toList, not_or]
  by_cases same : other = uri
  · subst same
    simp only [↓reduceIte, reduceCtorEq, false_iff]
    rintro ⟨⟨uncancelled, notRunning⟩, live⟩
    exact notRunning ((sound.running_iff other ticket).mpr ⟨uncancelled, live⟩)
  · simp only [same, ↓reduceIte, sound.running_iff]
    constructor
    · rintro ⟨uncancelled, started, live⟩
      refine ⟨⟨uncancelled, ?_⟩, started, live⟩
      rintro ⟨_, _, cancelled⟩
      exact same (Job.validation.inj (sound.job_eq live cancelled rfl)).2.1
    · exact fun kept => ⟨kept.1.1, kept.2⟩

/-- Tickets that are cancelled, or about to be, were given out before. -/
theorem cancelled_lt_append {uri : String} {ticket : Ticket}
    (member : ticket ∈ course.schedule.cancelled ++ (course.schedule.running.get? uri).toList) :
    ticket < course.schedule.nextTicket := by
  rcases List.mem_append.mp member with before | running
  · exact sound.cancelled_lt ticket before
  · obtain ⟨_, _, live⟩ := (sound.running_iff uri ticket).mp (Option.mem_toList.mp running)
    exact sound.ticket_lt _ live

/-- A document that starts a quiet period leaves the one that it was in. -/
theorem adopt_awaitQuiet (uri : String) (seconds : Option Float) :
    (course.adopt (course.schedule.awaitQuiet uri seconds)).Sound := by
  have jobsEq : (course.adopt (course.schedule.awaitQuiet uri seconds)).jobs =
      Job.obeyAll course.jobs ((course.schedule.pending.get? uri).toList.map .interrupt) ++
        [.quiet course.schedule.nextTicket uri] := by
    simp [adopt, awaitQuiet, Job.obeyAll_append, Job.obey]
  have older := Job.obeyAll_interrupt_sublist course.jobs (course.schedule.pending.get? uri).toList
  refine ⟨?_, ?_, ?_, ?_, ?_, ?_, sound.running_nodup⟩
  · rw [jobsEq]
    exact sound.ticket_lt_append rfl older
  · exact fun ticket member => Nat.lt_succ_of_lt (sound.cancelled_lt ticket member)
  · rw [jobsEq]
    exact sound.distinct_append rfl older
  · intro other ticket
    change ((course.schedule.pending.erase uri).insert uri course.schedule.nextTicket).get? other =
      some ticket ↔ _
    rw [jobsEq, OrderedMap.get?_insert, OrderedMap.get?_erase, List.mem_append,
      sound.mem_interrupt_pending, List.mem_singleton, Job.quiet.injEq]
    by_cases same : other = uri
    · subst same
      simp [eq_comm]
    · simp [same, sound.pending_iff]
  · intro ticket
    rw [jobsEq]
    change course.schedule.dependentsTimer = some ticket ↔ _
    simp [sound.mem_interrupt_pending, sound.timer_iff]
  · intro other ticket
    rw [jobsEq]
    change course.schedule.running.get? other = some ticket ↔ ticket ∉ course.schedule.cancelled ∧ _
    simp [sound.mem_interrupt_pending, sound.running_iff]

/-- A validation that starts supersedes the one that was running. -/
theorem adopt_start (around : Surroundings) (uri : String) :
    (course.adopt (course.schedule.start around uri)).Sound := by
  cases opened : around.versionOf uri with
  | none =>
      have unchanged : course.adopt (course.schedule.start around uri) = course := by
        simp [adopt, start, opened]
      rw [unchanged]
      exact sound
  | some version =>
      let next : Job := .validation course.schedule.nextTicket uri version
      have adopted : course.adopt (course.schedule.start around uri) =
          ⟨{ course.schedule with
              running := (course.schedule.running.erase uri).insert uri course.schedule.nextTicket
              cancelled := course.schedule.cancelled ++ (course.schedule.running.get? uri).toList
              nextTicket := course.schedule.nextTicket + 1 }, course.jobs ++ [next]⟩ := by
        simp [adopt, start, opened, Job.obeyAll_append, Job.obey, next]
      have older := List.Sublist.refl course.jobs
      rw [adopted]
      refine ⟨sound.ticket_lt_append rfl older, ?_, sound.distinct_append rfl older, ?_, ?_, ?_,
        OrderedMap.nodup_keys_insert (OrderedMap.nodup_keys_erase sound.running_nodup uri) _ _⟩
      · exact fun ticket member => Nat.lt_succ_of_lt (sound.cancelled_lt_append member)
      · intro other ticket
        simpa [next] using sound.pending_iff other ticket
      · intro ticket
        simpa [next] using sound.timer_iff ticket
      · intro other ticket
        have left := sound.running_erase_iff uri other ticket
        by_cases same : other = uri
        · subst same
          -- All that was remembered of the document is cancelled.
          rw [OrderedMap.get?_erase, if_pos rfl, List.mem_append] at left
          simp only [OrderedMap.get?_insert, ↓reduceIte, Option.some.injEq, List.mem_append,
            List.mem_singleton, exists_or]
          constructor
          · rintro rfl
            refine ⟨fun member => ?_, Or.inr ⟨version, rfl⟩⟩
            exact Nat.lt_irrefl _ (sound.cancelled_lt_append (List.mem_append.mpr member))
          · rintro ⟨uncancelled, older | ⟨_, last⟩⟩
            · cases left.mpr ⟨uncancelled, older⟩
            · exact (Job.validation.inj last).1.symm
        · simpa [OrderedMap.get?_insert, same, next] using left

/-- A shared quiet period that starts takes the place of the one before. -/
theorem adopt_awaitDependents (uri : String) :
    (course.adopt (course.schedule.awaitDependents uri)).Sound := by
  have jobsEq : (course.adopt (course.schedule.awaitDependents uri)).jobs =
      Job.obeyAll course.jobs (course.schedule.dependentsTimer.toList.map .interrupt) ++
        [.dependentsQuiet course.schedule.nextTicket] := by
    simp [adopt, awaitDependents, Job.obeyAll_append, Job.obey]
  have older := Job.obeyAll_interrupt_sublist course.jobs course.schedule.dependentsTimer.toList
  refine ⟨?_, ?_, ?_, ?_, ?_, ?_, sound.running_nodup⟩
  · rw [jobsEq]
    exact sound.ticket_lt_append rfl older
  · exact fun ticket member => Nat.lt_succ_of_lt (sound.cancelled_lt ticket member)
  · rw [jobsEq]
    exact sound.distinct_append rfl older
  · intro other ticket
    rw [jobsEq]
    change course.schedule.pending.get? other = some ticket ↔ _
    simp [sound.mem_interrupt_timer, sound.pending_iff]
  · intro ticket
    rw [jobsEq]
    change some course.schedule.nextTicket = some ticket ↔ _
    simp [sound.mem_interrupt_timer, eq_comm]
  · intro other ticket
    rw [jobsEq]
    change course.schedule.running.get? other = some ticket ↔ ticket ∉ course.schedule.cancelled ∧ _
    simp [sound.mem_interrupt_timer, sound.running_iff]

/-- Dropping a job leaves the tickets distinct and below the next one. -/
theorem numbers_drop (job : Job) :
    (∀ other ∈ course.jobs.erase job, other.ticket < course.schedule.nextTicket) ∧
      ((course.jobs.erase job).map Job.ticket).Nodup :=
  ⟨fun other member => sound.ticket_lt other (List.mem_of_mem_erase member),
    (List.erase_sublist.map _).nodup sound.distinct⟩

/-- A live quiet job is the one its document waits for, so that its end clears the entry. -/
theorem leaveQuiet_eq {ticket : Ticket} {uri : String}
    (live : Job.quiet ticket uri ∈ course.jobs) :
    course.schedule.leaveQuiet ticket uri =
      { course.schedule with pending := course.schedule.pending.erase uri } := by
  rw [leaveQuiet, if_pos ((sound.pending_iff uri ticket).mpr live)]

/-- A quiet job that ends leaves a sound course. -/
theorem drop_quiet {ticket : Ticket} {uri : String} (live : Job.quiet ticket uri ∈ course.jobs) :
    (Course.mk (course.schedule.leaveQuiet ticket uri)
      (course.jobs.erase (.quiet ticket uri))).Sound := by
  obtain ⟨below, distinct⟩ := sound.numbers_drop (.quiet ticket uri)
  rw [sound.leaveQuiet_eq live]
  refine ⟨below, sound.cancelled_lt, distinct, ?_, ?_, ?_, sound.running_nodup⟩
  · intro other number
    rw [OrderedMap.get?_erase, sound.nodup_jobs.mem_erase_iff, ← sound.pending_iff]
    by_cases same : other = uri
    · subst same
      simp only [↓reduceIte, reduceCtorEq, false_iff, not_and, ne_eq, Job.quiet.injEq, and_true]
      intro different pending
      have current := (sound.pending_iff other ticket).mpr live
      exact different (Option.some.inj (pending.symm.trans current))
    · simp [same]
  · intro number
    simp [sound.nodup_jobs.mem_erase_iff, sound.timer_iff]
  · intro other number
    simp [sound.nodup_jobs.mem_erase_iff, sound.running_iff]

/-- The quiet job of the dependents leaves a sound course when it ends. -/
theorem drop_dependentsQuiet {ticket : Ticket}
    (live : Job.dependentsQuiet ticket ∈ course.jobs) :
    (Course.mk { course.schedule with changed := [], dependentsTimer := none }
      (course.jobs.erase (.dependentsQuiet ticket))).Sound := by
  obtain ⟨below, distinct⟩ := sound.numbers_drop (.dependentsQuiet ticket)
  refine ⟨below, sound.cancelled_lt, distinct, ?_, ?_, ?_, sound.running_nodup⟩
  · intro other number
    simp [sound.nodup_jobs.mem_erase_iff, sound.pending_iff]
  · intro number
    have current := (sound.timer_iff ticket).mpr live
    simp only [reduceCtorEq, sound.nodup_jobs.mem_erase_iff, ← sound.timer_iff, current, ne_eq,
      Job.dependentsQuiet.injEq, Option.some.injEq, false_iff, not_and]
    exact fun different same => different same.symm
  · intro other number
    simp [sound.nodup_jobs.mem_erase_iff, sound.running_iff]

/-- Once a validation has ended it is no longer remembered, and the others still are. -/
theorem get?_leaveRunning {ticket : Ticket} {uri : String} {version : Int}
    (live : Job.validation ticket uri version ∈ course.jobs) (other : String) (number : Ticket) :
    (course.schedule.leaveRunning ticket uri).running.get? other = some number ↔
      course.schedule.running.get? other = some number ∧ number ≠ ticket := by
  have ofTicket : course.schedule.running.get? other = some ticket → other = uri := by
    intro running
    obtain ⟨_, started, member⟩ := (sound.running_iff other ticket).mp running
    exact (Job.validation.inj (sound.job_eq member live rfl)).2.1
  unfold leaveRunning
  split
  · next current =>
      rw [OrderedMap.get?_erase]
      by_cases same : other = uri
      · subst same
        simp only [↓reduceIte, reduceCtorEq, current, Option.some.injEq, false_iff, not_and,
          not_not]
        exact Eq.symm
      · simp only [same, ↓reduceIte, iff_self_and]
        rintro running rfl
        exact same (ofTicket running)
  · next replaced =>
      rw [iff_self_and]
      rintro running rfl
      exact replaced (ofTicket running ▸ running)

/-- A validation that ends leaves a sound course. -/
theorem drop_validation {ticket : Ticket} {uri : String} {version : Int}
    (live : Job.validation ticket uri version ∈ course.jobs) :
    (Course.mk (course.schedule.leaveRunning ticket uri)
      (course.jobs.erase (.validation ticket uri version))).Sound := by
  obtain ⟨below, distinct⟩ := sound.numbers_drop (.validation ticket uri version)
  refine ⟨?_, ?_, distinct, ?_, ?_, ?_,
    course.schedule.nodup_keys_leaveRunning ticket uri sound.running_nodup⟩
  · simpa using below
  · simpa using sound.cancelled_lt
  · intro other number
    simp [sound.nodup_jobs.mem_erase_iff, sound.pending_iff]
  · intro number
    simp [sound.nodup_jobs.mem_erase_iff, sound.timer_iff]
  · intro other number
    rw [sound.get?_leaveRunning live, sound.running_iff, leaveRunning_cancelled]
    simp only [sound.nodup_jobs.mem_erase_iff]
    constructor
    · rintro ⟨⟨uncancelled, started, member⟩, different⟩
      exact ⟨uncancelled, started, fun same => different (Job.validation.inj same).1, member⟩
    · rintro ⟨uncancelled, started, different, member⟩
      exact ⟨⟨uncancelled, started, member⟩,
        fun same => different (sound.job_eq member live same)⟩

/-- A closed document is in no quiet period and its validation is cancelled. -/
theorem adopt_close (uri : String) : (course.adopt (course.schedule.close uri)).Sound := by
  have jobsEq : (course.adopt (course.schedule.close uri)).jobs =
      Job.obeyAll course.jobs ((course.schedule.pending.get? uri).toList.map .interrupt) := by
    simp [adopt, Schedule.close, Job.obeyAll_append, Job.obey]
  have older := Job.obeyAll_interrupt_sublist course.jobs (course.schedule.pending.get? uri).toList
  refine ⟨?_, fun ticket member => sound.cancelled_lt_append member, ?_, ?_, ?_, ?_,
    OrderedMap.nodup_keys_erase sound.running_nodup uri⟩
  · rw [jobsEq]
    exact fun job member => sound.ticket_lt job (older.subset member)
  · rw [jobsEq]
    exact (older.map _).nodup sound.distinct
  · intro other ticket
    rw [jobsEq, sound.mem_interrupt_pending]
    change (course.schedule.pending.erase uri).get? other = some ticket ↔ _
    rw [OrderedMap.get?_erase]
    by_cases same : other = uri
    · simp [same]
    · simp [same, sound.pending_iff]
  · intro ticket
    rw [jobsEq]
    change course.schedule.dependentsTimer = some ticket ↔ _
    simp [sound.mem_interrupt_pending, sound.timer_iff]
  · intro other ticket
    rw [jobsEq]
    simp only [sound.mem_interrupt_pending, ne_eq, reduceCtorEq, not_false_eq_true, implies_true,
      and_true]
    exact sound.running_erase_iff uri other ticket

/-- A schedule that was stopped remembers nothing, and all its validations are cancelled. -/
theorem adopt_shutdown : (course.adopt course.schedule.shutdown).Sound := by
  let stopped := course.schedule.pending.values ++ course.schedule.running.values ++
    course.schedule.dependentsTimer.toList
  have jobsEq : (course.adopt course.schedule.shutdown).jobs =
      Job.obeyAll course.jobs (stopped.map .interrupt) := by
    simp [adopt, Schedule.shutdown, Job.obeyAll_append, stopped]
  have older := Job.obeyAll_interrupt_sublist course.jobs stopped
  refine ⟨?_, ?_, ?_, ?_, ?_, ?_, List.nodup_nil⟩
  · rw [jobsEq]
    exact fun job member => sound.ticket_lt job (older.subset member)
  · intro ticket member
    rcases List.mem_append.mp member with before | running
    · exact sound.cancelled_lt ticket before
    · obtain ⟨⟨uri, _⟩, entry, rfl⟩ := List.mem_map.mp running
      have remembered := OrderedMap.get?_of_mem_entries sound.running_nodup entry
      obtain ⟨_, _, live⟩ := (sound.running_iff uri _).mp remembered
      exact sound.ticket_lt _ live
  · rw [jobsEq]
    exact (older.map _).nodup sound.distinct
  · intro other ticket
    rw [jobsEq, Job.mem_obeyAll_interrupt]
    change none = some ticket ↔ _
    simp only [reduceCtorEq, Job.isValidation, Bool.false_eq_true, Job.ticket, false_or, false_iff,
      not_and, not_not, ← sound.pending_iff]
    intro pending
    exact List.mem_append_left _ (List.mem_append_left _ (OrderedMap.mem_values_of_get? pending))
  · intro ticket
    rw [jobsEq, Job.mem_obeyAll_interrupt]
    change none = some ticket ↔ _
    simp only [reduceCtorEq, Job.isValidation, Bool.false_eq_true, Job.ticket, false_or, false_iff,
      not_and, not_not, ← sound.timer_iff]
    exact fun remembered => List.mem_append_right _ (Option.mem_toList.mpr remembered)
  · intro other ticket
    rw [jobsEq]
    change none = some ticket ↔
      ticket ∉ course.schedule.cancelled ++ course.schedule.running.values ∧ _
    simp only [reduceCtorEq, List.mem_append, not_or, Job.mem_obeyAll_interrupt, Job.isValidation,
      true_or, and_true, false_iff]
    rintro ⟨⟨uncancelled, notRunning⟩, live⟩
    exact notRunning (OrderedMap.mem_values_of_get?
      ((sound.running_iff other ticket).mpr ⟨uncancelled, live⟩))

/-- Starting validations in a sound course keeps it sound. -/
theorem adopt_startAll (around : Surroundings) (uris : List String) :
    (course.adopt (startAll around course.schedule uris)).Sound := by
  induction uris generalizing course with
  | nil => exact sound
  | cons uri rest ih =>
      rw [adopt_startAll_cons]
      exact ih (sound.adopt_start around uri)

/-- Finishing a validation, with all it publishes and starts over, keeps the course sound. -/
theorem adopt_finish (around : Surroundings) {ticket : Ticket} {uri : String} {version : Int}
    (live : Job.validation ticket uri version ∈ course.jobs) (ending : ValidationEnd) :
    ((course.drop (.validation ticket uri version)).adopt
      (course.schedule.finish around ticket uri version ending)).Sound := by
  have dropped := sound.drop_validation live
  have silent := Job.obeyAll_finish around course.schedule ticket uri version ending
    (course.jobs.erase (.validation ticket uri version))
  obtain ⟨warned, warnings, shown, finishEq, -⟩ :=
    finish_cases around course.schedule ticket uri version ending
  rw [finishEq] at silent ⊢
  simp only [adopt, drop, silent]
  exact ⟨dropped.ticket_lt, dropped.cancelled_lt, dropped.distinct, dropped.pending_iff,
    dropped.timer_iff, dropped.running_iff, dropped.running_nodup⟩

/-- A cancelled validation may also never end. -/
theorem drop_cancelled {ticket : Ticket} (cancelled : ticket ∈ course.schedule.cancelled)
    (uri : String) (version : Int) : (course.drop (.validation ticket uri version)).Sound := by
  obtain ⟨below, distinct⟩ := sound.numbers_drop (.validation ticket uri version)
  refine ⟨below, sound.cancelled_lt, distinct, ?_, ?_, ?_, sound.running_nodup⟩
  · intro other number
    simp [drop, sound.nodup_jobs.mem_erase_iff, sound.pending_iff]
  · intro number
    simp [drop, sound.nodup_jobs.mem_erase_iff, sound.timer_iff]
  · intro other number
    simp only [drop, sound.nodup_jobs.mem_erase_iff, sound.running_iff, ne_eq,
      Job.validation.injEq]
    constructor
    · rintro ⟨uncancelled, started, live⟩
      exact ⟨uncancelled, started, fun equal => uncancelled (equal.1 ▸ cancelled), live⟩
    · rintro ⟨uncancelled, started, _, live⟩
      exact ⟨uncancelled, started, live⟩

end Sound

/-- In a course in which nothing is going on nothing is remembered. -/
theorem sound_initial (quietSeconds dependentSeconds : Float) :
    (initial quietSeconds dependentSeconds).Sound := by
  constructor <;> simp [initial, Schedule.initial, OrderedMap.keys]
  exact List.nodup_nil

/-- **Every step of a course keeps the schedule and its jobs together.** -/
theorem Step.sound {around : Surroundings} {before after : Course} {event : ScheduleEvent}
    (step : Step around before event after) (sound : before.Sound) : after.Sound := by
  cases step with
  | request asked =>
      cases event with
      | schedule uri seconds => exact sound.adopt_awaitQuiet uri seconds
      | scheduleDependents uri => exact sound.adopt_awaitDependents uri
      | start uri => exact sound.adopt_start around uri
      | close uri => exact sound.adopt_close uri
      | shutdown => exact sound.adopt_shutdown
      | quiet _ _ => exact asked.elim
      | dependentsQuiet => exact asked.elim
      | ended _ _ _ _ => exact asked.elim
  | report live reports =>
      cases reports with
      | quiet ticket uri => exact (sound.drop_quiet live).adopt_start around uri
      | dependentsQuiet ticket =>
          exact (sound.drop_dependentsQuiet live).adopt_startAll around
            (affected around before.schedule.changed)
      | validation ticket uri version ending => exact sound.adopt_finish around live ending

end Course

end Schedule

end ModelAssist
