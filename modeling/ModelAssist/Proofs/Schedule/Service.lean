import ModelAssist.Proofs.Concurrency
import ModelAssist.Proofs.Concurrency.Closed
import ModelAssist.Proofs.Schedule.Ticket
import ModelAssist.Schedule.Dispatch

/-!
# Tasks that serve a schedule

What a task does for a schedule that it shares with others.  A task may have a job, of which it
reports the end, and then it carries out what the schedule answers with, command by command and
without a wait.  A task without a job may make requests, and its own tasks are the only ones that it
interrupts by itself (`Process.Serves`).

Acts that serve may follow each other and may be given deadlines and tokens (`Act.Serves.closed`).
The tasks that carry out the commands of a schedule serve it, if validations do
(`Dispatch.serves_validation`, `Dispatch.serves_quiet`).
-/

namespace ModelAssist

open Schedule (Job)

/-- A host of a schedule that keeps what it told, with what it tells for a publication and for a
warning. -/
structure Herald (State Result Fault Message : Type) extends DispatchHost State Result Fault where
  told : State → List Message
  published : String → List Diagnostic → Option Int → List Message
  warned : String → List Message

/-- The events of which a task may let its schedule know: a task with a job reports this, and any
other task makes requests. -/
inductive Schedule.Job.Tells : Option Job → ScheduleEvent → Prop
  | report {job : Job} {event : ScheduleEvent} (reports : job.Reports event) :
      Tells (some job) event
  | request {event : ScheduleEvent} (asked : event.IsRequest) : Tells none event

variable {State Result Fault Output Message : Type}

namespace Herald

variable (herald : Herald State Result Fault Message)

/-- What is told when a command is carried out. -/
def tells : ScheduleCommand → List Message
  | .publish uri found version => herald.published uri found version
  | .warn message => herald.warned message
  | _ => []

/-- Holds of states with the same schedule, workers and messages. -/
def Alike (first second : State) : Prop :=
  herald.get first = herald.get second ∧ herald.told first = herald.told second

/-- Holds of acts that tell some messages and do nothing else. -/
def Says (act : Act State Result Fault Unit) (messages : List Message) : Prop :=
  ∀ (task : TaskId) (agenda : Agenda State Result), ∃ state,
    herald.get state = herald.get agenda.state ∧
      herald.told state = herald.told agenda.state ++ messages ∧
      act.Yields task agenda () { agenda with state }

end Herald

/-- Holds of a process that may interrupt some tasks of its own, has to report a job if there is
one, and has still to carry out some commands of the schedule. -/
inductive Process.Serves (herald : Herald State Result Fault Message) :
    List TaskId → Option Job → List ScheduleCommand → Process State Result → State → Prop
  | finish {own state} (result : Option Result) : Serves herald own none [] (.finish result) state
  | look {own job due state} {next : State → Process State Result}
      (later : Serves herald own job due (next state) state) :
      Serves herald own job due (.look next) state
  | change {own job due state} {update : State → State} {next : Process State Result}
      (alike : herald.Alike (update state) state)
      (later : Serves herald own job due next (update state)) :
      Serves herald own job due (.change update next) state
  | clock {own job due state} {next : Moment → Process State Result}
      (later : ∀ now, Serves herald own job due (next now) state) :
      Serves herald own job due (.clock next) state
  /-- A validation, and a task without a job, go on however a wait ends. -/
  | wait {own job state} {process : Process State Result} {next : Wake → Process State Result}
      (waits : process.Waits next) (validates : job.all Job.isValidation)
      (later : ∀ wake after, Serves herald own job [] (next wake) after) :
      Serves herald own job [] process state
  /-- A quiet period that is interrupted ends without a report. -/
  | doze {own job state} {process : Process State Result} {next : Wake → Process State Result}
      (waits : process.Waits next) (quiet : job.isValidation = false)
      (drops : next .interrupted = .finish none)
      (later : ∀ after, Serves herald own (some job) [] (next .resumed) after) :
      Serves herald own (some job) [] process state
  | start {own job due state} {child : Process State Result} {next : TaskId → Process State Result}
      (begins : ∀ after, Serves herald [] none [] child after)
      (later : ∀ task, Serves herald (task :: own) job due (next task) state) :
      Serves herald own job due (.start child next) state
  | interrupt {own job due state} {task : TaskId} {next : Process State Result} (mine : task ∈ own)
      (later : Serves herald own job due next state) :
      Serves herald own job due (.interrupt task next) state
  | ended {own job due state} {task : TaskId}
      {next : Option (Option Result) → Process State Result}
      (later : ∀ result, Serves herald own job due (next result) state) :
      Serves herald own job due (.ended task next) state
  | cancelled {own job due state} {token : TokenId} {next : Option String → Process State Result}
      (later : ∀ reason, Serves herald own job due (next reason) state) :
      Serves herald own job due (.cancelled token next) state
  | setDeadline {own job due state} {span : Moment} {next : DeadlineId → Process State Result}
      (validates : job.all Job.isValidation)
      (later : ∀ deadline, Serves herald own job due (next deadline) state) :
      Serves herald own job due (.setDeadline span next) state
  | clearDeadline {own job due state} {deadline : DeadlineId} {next : Bool → Process State Result}
      (later : ∀ passed, Serves herald own job due (next passed) state) :
      Serves herald own job due (.clearDeadline deadline next) state
  /-- The schedule is let know of an event, and its commands have to be carried out. -/
  | decide {own job state} {event : ScheduleEvent}
      {next : Except (Stop Fault) (List ScheduleCommand) → Process State Result}
      (tells : Job.Tells job event)
      (later : ∀ after, Serves herald own none
        ((herald.get state).schedule.handle (herald.surroundings state) event).2
        (next (.ok ((herald.get state).schedule.handle (herald.surroundings state) event).2))
        after) :
      Serves herald own job [] (Dispatch.decide herald.toDispatchHost event next) state
  | perform {own due state} {command : ScheduleCommand}
      {next : Except (Stop Fault) Unit → Process State Result}
      (later : ∀ after, Serves herald own none due (next (.ok ())) after) :
      Serves herald own none (command :: due)
        (Dispatch.perform herald.toDispatchHost (Dispatch.spawn herald.toDispatchHost) command next)
        state

/-- Holds of an act that serves whatever serves after it. -/
def Act.Serves (herald : Herald State Result Fault Message) (job : Option Job)
    (act : Act State Result Fault Output) : Prop :=
  ∀ next own, (∀ output more after, own ⊆ more →
      Process.Serves herald more job [] (next output) after) →
    ∀ state, Process.Serves herald own job [] (act next) state

namespace Act.Serves

variable {herald : Herald State Result Fault Message} {job : Option Job} {Other : Type}

theorem pure (value : Output) :
    (Pure.pure value : Act State Result Fault Output).Serves herald job :=
  fun _ own later state => later (.ok value) own state (List.Subset.refl _)

theorem throw (stop : Stop Fault) :
    (throw stop : Act State Result Fault Output).Serves herald job :=
  fun _ own later state => later (.error stop) own state (List.Subset.refl _)

theorem bind {act : Act State Result Fault Output} {rest : Output → Act State Result Fault Other}
    (first : act.Serves herald job) (second : ∀ output, (rest output).Serves herald job) :
    (act >>= rest).Serves herald job := by
  intro next own later state
  obtain ⟨carry, bound, resumed, stopped⟩ := Act.exists_carry act rest next
  rw [bound]
  refine first carry own (fun output more after among => ?_) state
  cases output with
  | ok value =>
      rw [resumed]
      refine second value next more (fun output further after among' => ?_) after
      exact later output further after (List.Subset.trans among among')
  | error stop =>
      rw [stopped]
      exact later (.error stop) more after among

theorem attempt {act : Act State Result Fault Output} (serves : act.Serves herald job) :
    (Act.attempt act).Serves herald job :=
  fun _ own later => serves _ own fun output => later (.ok output)

theorem look : (Act.look : Act State Result Fault State).Serves herald job :=
  fun _ own later state => .look (later (.ok state) own state (List.Subset.refl _))

theorem change {update : State → State} (alike : ∀ state, herald.Alike (update state) state) :
    (Act.change update : Act State Result Fault Unit).Serves herald job :=
  fun _ own later state => .change (alike state) (later (.ok ()) own _ (List.Subset.refl _))

theorem step {update : State → State × Output}
    (alike : ∀ state, herald.Alike (update state).1 state) :
    (Act.step update : Act State Result Fault Output).Serves herald job :=
  fun _ own later state =>
    .look (.change (alike state) (later (.ok (update state).2) own _ (List.Subset.refl _)))

theorem clock : (Act.clock : Act State Result Fault Moment).Serves herald job :=
  fun _ own later state => .clock fun now => later (.ok now) own state (List.Subset.refl _)

theorem cancelled (token : TokenId) :
    (Act.cancelled token : Act State Result Fault (Option String)).Serves herald job :=
  fun _ own later state =>
    .cancelled fun reason => later (.ok reason) own state (List.Subset.refl _)

theorem start {child : Process State Result}
    (begins : ∀ after, child.Serves herald [] none [] after) :
    (Act.start child : Act State Result Fault TaskId).Serves herald job :=
  fun _ own later state => .start begins fun task =>
    later (.ok task) _ state (List.subset_cons_self task own)

theorem run {act : Act State Result Fault Unit} (serves : act.Serves herald none)
    (state : State) : (Act.run act).Serves herald [] none [] state :=
  serves _ [] (fun _ _ _ _ => .finish none) state

section Waits

variable (validates : job.all Job.isValidation)
include validates

/-- What waits serves if it does however the wait ends. -/
theorem wait {act : Act State Result Fault Unit}
    (waits : ∀ next, (act next).Waits (Act.afterWake next)) : act.Serves herald job := by
  intro next own later state
  refine .wait (waits next) validates fun wake after => ?_
  cases wake with
  | resumed => exact later (.ok ()) own after (List.Subset.refl _)
  | interrupted => exact later (.error .interrupted) own after (List.Subset.refl _)

theorem pause : (Act.pause : Act State Result Fault Unit).Serves herald job :=
  wait validates fun _ => .pause _

theorem sleep (span : Moment) : (Act.sleep span : Act State Result Fault Unit).Serves herald job :=
  wait validates fun _ => .sleep span _

theorem awaitAny (tasks : List TaskId) :
    (Act.awaitAny tasks : Act State Result Fault Unit).Serves herald job :=
  wait validates fun _ => .awaitAny tasks _

theorem awaitCancel (token : TokenId) :
    (Act.awaitCancel token : Act State Result Fault Unit).Serves herald job :=
  wait validates fun _ => .awaitCancel token _

end Waits

section Closed

variable {Value : Type} {herald : Herald State (Except Fault Value) Fault Message}
  {act : Act State (Except Fault Value) Fault Value}

theorem toProcess {act : Act State (Except Fault Output) Fault Output}
    {herald : Herald State (Except Fault Output) Fault Message} (serves : act.Serves herald none)
    (state : State) : (Act.toProcess act).Serves herald [] none [] state := by
  refine serves _ [] (fun output more after _ => ?_) state
  cases output with
  | ok value => exact .finish _
  | error stop => cases stop <;> exact .finish _

theorem resultOf (work : TaskId) : (Act.resultOf work : Act _ _ _ Value).Serves herald job := by
  intro next own later state
  refine .ended fun result => ?_
  have serves : ∀ output, (next output).Serves herald own job [] state :=
    fun output => later output own state (List.Subset.refl _)
  rcases result with _ | _ | _ | _
  · exact serves _
  · exact serves _
  · exact serves _
  · exact serves _

variable (validates : job.all Job.isValidation)
  (begins : ∀ after, (Act.toProcess act).Serves herald [] none [] after)
include validates begins

/-- Work with a deadline is interrupted by the task that started it. -/
theorem within (span : Moment) (onTimeout : Fault) :
    (Act.within span onTimeout act).Serves herald job := by
  intro next own later state
  refine .setDeadline validates fun deadline => .start begins fun work => ?_
  have goes : ∀ output after, (next output).Serves herald (work :: own) job [] after :=
    fun output after => later output _ after (List.subset_cons_self work own)
  refine .wait (.awaitAny [work] _) validates fun wake after => ?_
  cases wake with
  | resumed =>
      refine .clearDeadline fun passed => resultOf work next _ (fun output more after among => ?_) _
      exact later output more after (List.Subset.trans (List.subset_cons_self work own) among)
  | interrupted =>
      refine .clearDeadline fun passed => .interrupt List.mem_cons_self ?_
      refine .wait (.awaitAny [work] _) validates fun wake after => ?_
      cases wake with
      | interrupted => exact goes _ after
      | resumed => cases passed <;> exact goes _ after

/-- Work with a token is interrupted by the task that started it, and so is the task that watches
the token. -/
theorem untilCancelled (onCancel : String → Fault) (token : TokenId) :
    (Act.untilCancelled onCancel act token).Serves herald job := by
  intro next own later state
  have watches : ∀ after, (Act.run (Act.awaitCancel token : Act State (Except Fault Value) Fault
      Unit)).Serves herald [] none [] after := run (awaitCancel rfl token)
  refine .cancelled fun reason => ?_
  cases reason with
  | some reason => exact later _ own state (List.Subset.refl _)
  | none =>
      refine .start begins fun work => .start watches fun watcher => ?_
      have among : own ⊆ watcher :: work :: own :=
        fun task member => List.mem_cons_of_mem _ (List.mem_cons_of_mem _ member)
      have mine : work ∈ watcher :: work :: own := List.mem_cons_of_mem _ List.mem_cons_self
      refine .wait (.awaitAny [work, watcher] _) validates fun wake after => ?_
      cases wake with
      | interrupted =>
          exact .interrupt mine (.interrupt List.mem_cons_self (later _ _ after among))
      | resumed =>
          refine .interrupt List.mem_cons_self (.ended fun result => ?_)
          cases result with
          | some result =>
              exact resultOf work next _ (fun output more after among' =>
                later output more after (List.Subset.trans among among')) after
          | none =>
              exact .interrupt mine (.cancelled fun reason => later _ _ after among)

end Closed

/-- **Acts that serve make up what serves**, whether or not they are a part of a validation. -/
theorem closed {Value : Type} {herald : Herald State (Except Fault Value) Fault Message}
    (validates : job.all Job.isValidation) :
    Act.Closed (fun act : Act State (Except Fault Value) Fault _ => act.Serves herald job)
      fun child => ∀ after, child.Serves herald [] none [] after where
  pure := pure
  throw := throw
  bind := bind
  attempt := attempt
  look := look
  clock := clock
  pause := pause validates
  sleep := sleep validates
  start := start
  awaitAny := awaitAny validates
  cancelled := cancelled
  within span onTimeout begins := within validates begins span onTimeout
  untilCancelled onCancel token begins _ := untilCancelled validates begins onCancel token

end Act.Serves

/-- Holds of the heralds on which a schedule may rely: they keep the schedule and what they told,
they tell what they are to tell, and their validations serve. -/
structure Herald.Lawful (herald : Herald State Result Fault Message) : Prop where
  get_set : ∀ dispatch state, herald.get (herald.set dispatch state) = dispatch
  told_set : ∀ dispatch state, herald.told (herald.set dispatch state) = herald.told state
  publish : ∀ uri found version,
    herald.Says (herald.publish uri found version) (herald.published uri found version)
  warn : ∀ message, herald.Says (herald.warn message) (herald.warned message)
  validate : ∀ uri token job, Job.isValidation job →
    (herald.validate uri token).Serves herald (some job)

namespace Dispatch

section Spawn

variable {host : DispatchHost State Result Fault}

/-- Commands that begin nothing are carried out alike, whatever starts work. -/
theorem perform_of_begun? {spawn : ScheduleCommand → Act State Result Fault Unit}
    {command : ScheduleCommand} (begins : command.begun? = none) :
    perform host spawn command = perform host (Dispatch.spawn host) command := by
  cases command with
  | awaitQuiet _ _ _ => cases begins
  | awaitDependentsQuiet _ _ => cases begins
  | validate _ _ _ => cases begins
  | _ => rfl

/-- Where only validations are started, only these need to be known. -/
theorem perform_spawnValidation {command : ScheduleCommand} (restarts : command.Restarts) :
    perform host (spawnValidation host) command = perform host (Dispatch.spawn host) command := by
  cases command with
  | awaitQuiet _ _ _ => exact restarts.elim
  | awaitDependentsQuiet _ _ => exact restarts.elim
  | _ => rfl

end Spawn

variable {herald : Herald State Result Fault Message} {own : List TaskId} {state : State}

/-- The commands of a schedule are carried out one after the other. -/
theorem serves_performAll {spawn : ScheduleCommand → Act State Result Fault Unit}
    {commands : List ScheduleCommand}
    (spawns : ∀ command ∈ commands, perform herald.toDispatchHost spawn command =
      perform herald.toDispatchHost (Dispatch.spawn herald.toDispatchHost) command)
    {next : Except (Stop Fault) Unit → Process State Result}
    (later : ∀ after, (next (.ok ())).Serves herald own none [] after) :
    (performAll herald.toDispatchHost spawn commands next).Serves herald own none commands
      state := by
  induction commands generalizing state with
  | nil => exact later state
  | cons command rest ih =>
      change (perform herald.toDispatchHost spawn command _).Serves herald own none _ state
      rw [spawns command List.mem_cons_self]
      exact .perform fun after =>
        ih (fun other member => spawns other (List.mem_cons_of_mem _ member))

/-- What follows when the schedule was let know of an event carries out the commands. -/
theorem serves_decide_bind {event : ScheduleEvent} {job : Option Job} (tells : Job.Tells job event)
    {rest : List ScheduleCommand → Act State Result Fault Output}
    {next : Except (Stop Fault) Output → Process State Result}
    (later : ∀ around (schedule : Schedule) after, (rest (schedule.handle around event).2
      next).Serves herald own none (schedule.handle around event).2 after) :
    ((decide herald.toDispatchHost event >>= rest) next).Serves herald own job [] state := by
  obtain ⟨carry, bound, resumed, -⟩ := Act.exists_carry (decide herald.toDispatchHost event) rest
    next
  rw [bound]
  refine .decide tells fun after => ?_
  rw [resumed]
  exact later _ _ after

/-- A task lets the schedule know of an event and carries out the commands. -/
theorem serves_handleWith {spawn : ScheduleCommand → Act State Result Fault Unit}
    {event : ScheduleEvent} {job : Option Job} (tells : Job.Tells job event)
    (spawns : ∀ around (schedule : Schedule), ∀ command ∈ (schedule.handle around event).2,
      perform herald.toDispatchHost spawn command =
        perform herald.toDispatchHost (Dispatch.spawn herald.toDispatchHost) command)
    {next : Except (Stop Fault) Unit → Process State Result}
    (later : ∀ after, (next (.ok ())).Serves herald own none [] after) :
    (handleWith herald.toDispatchHost spawn event next).Serves herald own job [] state :=
  serves_decide_bind tells fun around schedule _ => serves_performAll (spawns around schedule) later

/-- A validation serves until it has reported how it ended. -/
theorem serves_validation (lawful : herald.Lawful) (ticket : Ticket) (uri : String) (version : Int)
    (token : TokenId) :
    (Act.run (validation herald.toDispatchHost ticket uri version token)).Serves herald []
      (some (.validation ticket uri version)) [] state := by
  refine lawful.validate uri token (.validation ticket uri version) rfl _ []
    (fun ended more after _ => ?_) state
  exact serves_handleWith (.report (.validation ticket uri version _))
    (fun around schedule command member => perform_of_begun? (Schedule.begun?_finish member).1)
    fun _ => .finish none

/-- A quiet period serves until it has reported that it is over. -/
theorem serves_quiet {job : Job} {event : ScheduleEvent} (reports : job.Reports event)
    (quiet : job.isValidation = false) (seconds : Float) :
    (Act.run (do
      Act.sleepSeconds seconds
      handleWith herald.toDispatchHost (spawnValidation herald.toDispatchHost) event)).Serves
        herald [] (some job) [] state := by
  have wakes : ∀ after, (handleWith herald.toDispatchHost (spawnValidation herald.toDispatchHost)
      event fun _ => .finish none).Serves herald [] (some job) [] after := by
    intro after
    refine serves_handleWith (.report reports) (fun around schedule command member => ?_)
      fun _ => .finish none
    apply perform_spawnValidation
    cases reports with
    | quiet ticket uri => exact Schedule.restarts_of_mem_start member
    | dependentsQuiet ticket => exact Schedule.restarts_of_mem_startAll member
    | validation _ _ _ _ => cases quiet
  unfold Act.sleepSeconds
  split
  · exact .doze (.sleep _ _) quiet rfl wakes
  · exact .doze (.pause _) quiet rfl wakes

/-- A request serves. -/
theorem serves_handle {event : ScheduleEvent} (asked : event.IsRequest) :
    (handle herald.toDispatchHost event).Serves herald none :=
  fun _ own later _ => serves_handleWith (.request asked) (fun _ _ _ _ => rfl)
    fun after => later (.ok ()) own after (List.Subset.refl own)

/-- To wait for some tasks serves. -/
theorem serves_awaitAll (tasks : List TaskId) :
    (awaitAll tasks : Act State Result Fault Unit).Serves herald none := by
  induction tasks with
  | nil => exact .pure ()
  | cons task rest ih => exact .bind (.awaitAny rfl [task]) fun _ => ih

/-- To stop everything serves. -/
theorem serves_shutdown : (shutdown herald.toDispatchHost).Serves herald none := by
  intro next own later state
  have asked : ScheduleEvent.shutdown.IsRequest := trivial
  unfold shutdown
  refine serves_decide_bind (.request asked) fun around schedule after => ?_
  obtain ⟨carry, bound, resumed, -⟩ := Act.exists_carry
    (performAll herald.toDispatchHost (fun _ => pure ()) (schedule.handle around .shutdown).2) _
    next
  rw [bound]
  refine serves_performAll (fun command member => perform_of_begun?
    (Schedule.begun?_shutdown member)) fun last => ?_
  rw [resumed]
  exact Act.Serves.bind .look (fun _ => serves_awaitAll _) next own later last

end Dispatch

end ModelAssist
