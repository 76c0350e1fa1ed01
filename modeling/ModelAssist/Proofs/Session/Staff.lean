import ModelAssist.Proofs.Schedule.Publication
import ModelAssist.Proofs.Schedule.Turn
import ModelAssist.Proofs.Session.Course
import ModelAssist.Proofs.Session.Start
import ModelAssist.Proofs.Workspace.Validation
import ModelAssist.Session.Handling

/-!
# The staff of a session

A session at work, with all the tasks that handle messages, wait for quiet periods and validate.
Whatever messages come in and whatever turns are taken, the tasks do what has come of a run of the
schedule (`Session.Reached.staffs`): each job of the run that has still to report has a worker whose
task goes on, and the diagnostics that the editor was told are the publications of the run.  So none
of them was out of date when it was told (`Session.Reached.told_justified`).
-/

namespace ModelAssist

open Schedule (Job)

/-- Holds of the messages that show diagnostics. -/
def Protocol.Outgoing.isDiagnostics : Protocol.Outgoing → Bool
  | .diagnostics _ _ _ => true
  | _ => false

namespace Session

/-- The diagnostics that the editor was told, in the order of the messages. -/
def toldDiagnostics (session : Session) : List Protocol.Outgoing :=
  session.told.filter (·.isDiagnostics)

/-- Another message leaves the diagnostics that were told as they are. -/
theorem toldDiagnostics_tell {session : Session} {message : Protocol.Outgoing}
    (silent : message.isDiagnostics = false) :
    (session.tell message).toldDiagnostics = session.toldDiagnostics := by
  change (session.told ++ [message]).filter _ = session.told.filter _
  rw [List.filter_append, List.filter_cons_of_neg (by simp [silent]), List.filter_nil,
    List.append_nil]

/-- A warning shows no diagnostics. -/
theorem isDiagnostics_warning (session : Session) (text : String) :
    (session.warning text).isDiagnostics = false := by
  unfold warning
  split <;> rfl

variable [Host]

/-- How a session carries out its schedule, with the diagnostics that it tells for it. -/
def herald : Herald Session (Except ValidationFault ValidatorOutput) ValidationFault
    Protocol.Outgoing :=
  { host with
    told := toldDiagnostics
    published := fun uri found version =>
      if found.all Protocol.knows then [.diagnostics uri found version] else []
    warned := fun _ => [] }

/-- Diagnostics are told for a publication only. -/
theorem publish_of_tells {command : ScheduleCommand} {uri : String} {found : List Diagnostic}
    {version : Option Int} (tells : .diagnostics uri found version ∈ herald.tells command) :
    command = .publish uri found version := by
  cases command with
  | publish other published shown =>
      change _ ∈ (if published.all Protocol.knows then _ else _ : List Protocol.Outgoing) at tells
      split at tells
      · obtain ⟨rfl, rfl, rfl⟩ :=
          Protocol.Outgoing.diagnostics.inj (List.mem_singleton.mp tells)
        rfl
      · cases tells
  | _ => cases tells

/-! ## Validations serve -/

section Validation

open ValidatorClient Validation

variable {job : Option Job}

theorem serves_change (update : Workbench → Workbench) :
    (part.change update : SessionAct Unit).Serves herald job :=
  .change fun _ => ⟨rfl, rfl⟩

theorem serves_step {Output : Type} (update : Workbench → Workbench × Output) :
    (part.step update : SessionAct Output).Serves herald job :=
  .step fun _ => ⟨rfl, rfl⟩

variable (validates : job.all Job.isValidation) (settings : ValidatorSettings)
include validates

theorem serves_send (program : Path) (request : String) :
    (send part settings program request).Serves herald job := by
  refine holds_send (Act.Serves.closed validates)
    (holds_exchange (Act.Serves.closed validates) (Act.Serves.toProcess ?_)) ?_
  · exact holds_roundTrip (Act.Serves.closed rfl) (fun _ => serves_change _) fun _ => serves_step _
  · refine holds_ensureStarted (Act.Serves.closed validates) serves_change serves_step
      fun number => Act.Serves.run ?_
    exact holds_launch (Act.Serves.closed rfl) serves_change serves_step program number

theorem serves_check (file : String) (token : Option TokenId) :
    (check part settings file token).Serves herald job :=
  holds_check (Act.Serves.closed validates) (fun _ => serves_send validates settings _ _)
    (fun _ => Act.Serves.toProcess (serves_send rfl settings _ _))
    (fun token => Act.Serves.run (.awaitCancel rfl token)) token

theorem serves_inShadow {Output : Type} {act : Shadow → SessionAct Output}
    (serves : ∀ shadow, (act shadow).Serves herald job) (request : Workspace → ShadowRequest) :
    (inShadow part request act).Serves herald job := by
  refine .bind (holds_look (Act.Serves.closed validates)) fun bench => ?_
  refine .bind (serves_step _) fun made => ?_
  cases made with
  | error fault => exact .throw _
  | ok shadow => exact (Act.Serves.closed validates).ensure (serves shadow) (serves_change _)

theorem serves_validateIn (request : Workspace → ShadowRequest) (path : Path) (text : String)
    (token : Option TokenId) :
    (validateIn part settings request path text token).Serves herald job := by
  refine .bind (holds_look (Act.Serves.closed validates)) fun bench => ?_
  dsimp only
  split
  · exact .throw _
  · have asks : ∀ shadow, (ask part settings token shadow).Serves herald job :=
      fun shadow => .bind (serves_check validates settings _ _) fun _ => .pure _
    refine .bind (serves_inShadow validates asks request) fun answer => ?_
    split
    · exact .throw _
    · exact .pure _

/-- **A validation of a session serves its schedule.** -/
theorem serves_validate (uri : String) (token : TokenId) :
    (validate uri token).Serves herald job := by
  refine .bind .look fun session => ?_
  split
  · refine .bind (.cancelled token) fun cancelled => ?_
    exact serves_validateIn validates _ _ _ _ _
  · exact .pure _

end Validation

/-- Schedules may rely on sessions. -/
theorem lawful_herald : herald.Lawful where
  get_set _ _ := rfl
  told_set _ _ := rfl
  publish uri found version task agenda := by
    change ∃ state, _ ∧ _ ∧ (publish uri found version).Yields task agenda () _
    simp only [herald, publish]
    split
    · refine ⟨agenda.state.tell (.diagnostics uri found version), rfl, ?_, fun _ => rfl⟩
      exact List.filter_append _ _
    · exact ⟨agenda.state, rfl, (List.append_nil _).symm, .pure ()⟩
  warn text task agenda := by
    refine ⟨agenda.state.tell (agenda.state.warning text), rfl, ?_, fun _ => rfl⟩
    exact (toldDiagnostics_tell (isDiagnostics_warning _ text)).trans (List.append_nil _).symm
  validate uri token job validates :=
    serves_validate (show (some job).all Job.isValidation from validates) uri token

/-! ## Messages are handled by tasks that serve -/

section Messages

variable {Output : Type}

/-- Whatever becomes of the documents and of their index, a task serves. -/
private theorem serves_amend {update : Session → Session}
    (amends : ∀ session, ∃ workspace, update session = session.withWorkspace workspace) :
    (Act.change update : SessionAct Unit).Serves herald none := by
  refine .change fun session => ?_
  obtain ⟨workspace, same⟩ := amends session
  rw [same]
  exact ⟨rfl, rfl⟩

private theorem serves_say {message : Protocol.Outgoing} (silent : message.isDiagnostics = false) :
    (say message).Serves herald none :=
  .change fun _ => ⟨rfl, toldDiagnostics_tell silent⟩

private theorem serves_warn (text : String) : (warn text).Serves herald none :=
  .change fun session => ⟨rfl, toldDiagnostics_tell (isDiagnostics_warning session text)⟩

private theorem serves_plan {event : ScheduleEvent} (asked : event.IsRequest) :
    (plan event).Serves herald none :=
  Dispatch.serves_handle asked

private theorem serves_release (texts : List String) : (release texts).Serves herald none := by
  induction texts with
  | nil => exact .change fun _ => ⟨rfl, rfl⟩
  | cons text rest ih => exact .bind (serves_warn text) fun _ => ih

private theorem serves_answerLocations (request : Value) (uri : String) (position : Position) :
    (answerLocations request uri position).Serves herald none := by
  refine .bind (.step fun session => ?_) fun found => ?_
  · unfold locations
    split
    · exact ⟨rfl, rfl⟩
    · dsimp only
      split <;> exact ⟨rfl, rfl⟩
  · split <;> exact serves_say rfl

/-- What a message about a document asks for is done by tasks that serve. -/
theorem serves_handleDocument (message : Protocol.Incoming) :
    (handleDocument message).Serves herald none := by
  unfold handleDocument
  split
  · next uri text version =>
      refine .bind (serves_amend fun session => ?_) fun _ => serves_plan trivial
      obtain ⟨workspace, same, -⟩ := Course.afterOpening_eq uri text version session
      exact ⟨workspace, same⟩
  · next uri changes version =>
      refine .bind .look fun session => ?_
      split
      · exact .pure _
      · refine .bind (serves_amend fun session => ?_) fun _ =>
          .bind (serves_plan trivial) fun _ => serves_plan trivial
        obtain ⟨workspace, same, -⟩ := Course.afterEditing_eq uri _ version session
        exact ⟨workspace, same⟩
  · next uri =>
      refine .bind .look fun session => ?_
      refine .bind (serves_amend fun session => ⟨_, rfl⟩) fun _ => ?_
      refine .bind (serves_plan trivial) fun _ => ?_
      split
      · exact .bind (serves_amend fun session => ⟨_, rfl⟩) fun _ => serves_plan trivial
      · exact .pure _
  · exact .pure _

/-- **Messages are handled by tasks that serve**, but for the one with which the work begins. -/
theorem serves_handle (source : SessionSource) {message : Protocol.Incoming}
    (onward : ∀ request root options, message ≠ .begin request root options) :
    (handle source message).Serves herald none := by
  refine .bind .look fun session => ?_
  split
  · unfold handleLive
    split
    · exact (onward _ _ _ rfl).elim
    · exact .bind .look fun session => serves_release _
    · exact .bind Dispatch.serves_shutdown fun _ =>
        .bind (.change fun _ => ⟨rfl, rfl⟩) fun _ => serves_say rfl
    · next request uri position =>
        refine .bind (.step fun session => ?_) fun offered => serves_say rfl
        unfold items
        split <;> exact ⟨rfl, rfl⟩
    · exact serves_answerLocations _ _ _
    · exact serves_say rfl
    · refine .bind .look fun session => ?_
      split
      · exact serves_handleDocument _
      · exact .pure _
  · exact .pure _

end Messages

/-! ## Tasks at work for a session -/

/-- What the tasks of a session come to.  At first nobody is at work; then messages come in, but
none that asks for another start, turns are taken in any order, and the clock and the files change
as they will. -/
inductive Reached (source : SessionSource) : ValidatorClient.Tasks Session → Prop
  | begun {tasks : ValidatorClient.Tasks Session}
      (fresh : ∃ settings, tasks.state.dispatch = dispatchFor settings)
      (untold : tasks.state.toldDiagnostics = []) (ended : ∀ task, tasks.hasEnded task)
      (timeless : tasks.deadlines = #[]) : Reached source tasks
  | received {tasks : ValidatorClient.Tasks Session} (reached : Reached source tasks)
      {message : Protocol.Incoming}
      (onward : ∀ request root options, message ≠ .begin request root options) :
      Reached source (tasks.start (Act.run (handle source message)))
  | took {tasks : ValidatorClient.Tasks Session} (reached : Reached source tasks) (turn : Turn) :
      Reached source (tasks.take turn)
  | timed {tasks : ValidatorClient.Tasks Session} (reached : Reached source tasks)
      (now : ModelAssist.Moment) (queue : List Turn) (alarms : List Alarm) :
      Reached source { tasks with now, queue, alarms }
  | stored {tasks : ValidatorClient.Tasks Session} (reached : Reached source tasks)
      (files : FileStore) : Reached source { tasks with
        state := { tasks.state with bench := tasks.state.bench.withFiles files } }

/-- Where a set-up succeeds or fails, nobody is at work who was not before. -/
private theorem SetsUp.fresh {source : SessionSource} {settings : Settings} {request : Value}
    {session after : Session} (setsUp : SetsUp source settings request session after) :
    ((∃ other, session.dispatch = dispatchFor other) →
        ∃ other, after.dispatch = dispatchFor other) ∧
      after.toldDiagnostics = session.toldDiagnostics := by
  cases setsUp with
  | begun opened had => exact ⟨fun _ => ⟨settings, rfl⟩, toldDiagnostics_tell rfl⟩
  | unopened failed => exact ⟨id, toldDiagnostics_tell rfl⟩
  | broken opened breaks => exact ⟨id, toldDiagnostics_tell rfl⟩

/-- The message with which an editor begins leads to tasks of this kind. -/
theorem reached_begin (source : SessionSource) (files : FileStore) (surround : Surround)
    (request options : Value) (root : Option Path) :
    let tasks : ValidatorClient.Tasks Session := .initial (Session.initial files surround)
    Reached source ((tasks.start (Act.run (handle source (.begin request root options)))).take
      (.task 0)) := by
  intro tasks
  let started := tasks.start (Act.run (handle source (.begin request root options)))
  obtain ⟨after, fresh, untold, yields⟩ : ∃ after : Session,
      (∃ settings, after.dispatch = dispatchFor settings) ∧ after.toldDiagnostics = [] ∧
      (start source request root options).Yields 0 started () { started with state := after } := by
    cases settled : settingsFor source started.state.bench.workspace.files root options with
    | error fault =>
        exact ⟨started.state.tell (.refused request .internal), ⟨default, rfl⟩,
          toldDiagnostics_tell rfl, start_of_fault settled request 0⟩
    | ok found =>
        obtain ⟨after, setsUp, yields⟩ := start_of_settings settled request 0
        exact ⟨after, setsUp.fresh.1 ⟨default, rfl⟩, setsUp.fresh.2, yields⟩
  have ended : started.take (.task 0) =
      Agenda.finish { started with state := after } 0 none := yields _
  rw [ended]
  refine .begun fresh untold (fun task => ?_) rfl
  cases task with
  | zero => rfl
  | succ task => rfl

namespace Reached

variable {source : SessionSource} {tasks : ValidatorClient.Tasks Session}
  (reached : Reached source tasks)
include reached

/-- What the tasks do by themselves, first come, first served, they can come to. -/
theorem runWithin (limit : Option ModelAssist.Moment) (turns : Nat) :
    Reached source (tasks.runWithin limit turns) := by
  induction turns generalizing tasks with
  | zero => exact reached
  | succ turns ih =>
      unfold Agenda.runWithin
      split
      · next turn rest queue => exact ih ((reached.timed tasks.now rest tasks.alarms).took turn)
      · split
        · exact reached
        · split
          · exact ih (reached.timed _ _ _)
          · exact reached

/-- **The tasks of a session are the staff of its schedule.** -/
theorem staffs : ∃ errands history jobs, tasks.Staffs herald none errands history jobs [] := by
  induction reached with
  | begun fresh untold ended timeless =>
      obtain ⟨settings, fresh⟩ := fresh
      exact ⟨_, [], [], .initial fresh untold ended timeless⟩
  | received reached onward ih =>
      obtain ⟨errands, history, jobs, staffs⟩ := ih
      exact ⟨_, history, jobs, staffs.start (Act.Serves.run (serves_handle source onward))⟩
  | took reached turn ih =>
      obtain ⟨errands, history, jobs, staffs⟩ := ih
      obtain ⟨errands', further, jobs', staffs'⟩ := staffs.take lawful_herald turn
      exact ⟨errands', history ++ further, jobs', staffs'⟩
  | timed reached now queue alarms ih =>
      obtain ⟨errands, history, jobs, staffs⟩ := ih
      exact ⟨errands, history, jobs, staffs.congr ⟨rfl, rfl⟩ rfl rfl⟩
  | stored reached files ih =>
      obtain ⟨errands, history, jobs, staffs⟩ := ih
      exact ⟨errands, history, jobs, staffs.congr ⟨rfl, rfl⟩ rfl rfl⟩

/-- **What the tasks have come to is a run of the schedule.**  Each job that has still to report has
a worker whose task has not ended, and the diagnostics that the editor was told are those that the
run published. -/
theorem follows_run : ∃ history jobs,
    Schedule.Course.Run history ⟨tasks.state.dispatch.schedule, jobs⟩ ∧
      (∀ job ∈ jobs, ∃ worker ∈ tasks.state.dispatch.workers,
        worker.ticket = job.ticket ∧ ¬ tasks.hasEnded worker.task) ∧
      tasks.state.toldDiagnostics =
        (history.filterMap Schedule.Happening.command?).flatMap herald.tells := by
  obtain ⟨errands, history, jobs, staffs⟩ := reached.staffs
  exact ⟨history, jobs, staffs.run, fun _ => staffs.exists_worker,
    (List.append_nil _).symm.trans staffs.told⟩

/-- **Diagnostics of a version are told only of the version that the document has**, after a
validation of that version that nothing superseded. -/
theorem told_justified {uri : String} {found : List Diagnostic} {version : Int}
    (told : .diagnostics uri found (some version) ∈ tasks.state.told) :
    ∃ history jobs before around later,
      Schedule.Course.Run history ⟨tasks.state.dispatch.schedule, jobs⟩ ∧
        history = before ++ ⟨around, .command (.publish uri found (some version))⟩ :: later ∧
        Schedule.Justified before around uri found version := by
  obtain ⟨history, jobs, run, -, published⟩ := reached.follows_run
  have shown : .diagnostics uri found (some version) ∈ tasks.state.toldDiagnostics :=
    List.mem_filter.mpr ⟨told, rfl⟩
  rw [published, List.mem_flatMap] at shown
  obtain ⟨command, given, tells⟩ := shown
  obtain rfl := publish_of_tells tells
  obtain ⟨⟨around, deed⟩, member, commanded⟩ := List.mem_filterMap.mp given
  obtain ⟨before, later, split⟩ := List.append_of_mem member
  cases deed with
  | event event => cases commanded
  | command command =>
      obtain rfl := Option.some.inj commanded
      exact ⟨history, jobs, before, around, later, run, split, run.justified split⟩

end Reached

end Session

end ModelAssist
