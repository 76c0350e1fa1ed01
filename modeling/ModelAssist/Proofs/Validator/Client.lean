import ModelAssist.Proofs.Concurrency.Closed
import ModelAssist.Proofs.Validator.Discipline
import ModelAssist.Validator.Client

/-!
# Requests to the validator

Requests to a validator keep to the moves of launches, however many there are, however their turns
follow each other and whichever of them are interrupted or cancelled at whichever wait.  So
`ValidatorClient.startsOnce` carries over to them what holds of all legal moves: the validator is
started once, but for launches that a late request displaced.
-/

namespace ModelAssist

variable {State Result Fault Output Other : Type} (launcherOf : State → Launcher)

/-- Holds of the acts that keep a process obedient whatever it owes. -/
def Act.Obeys (act : Act State Result Fault Output) : Prop :=
  ∀ next owed, (∀ output state, (next output).Obeys launcherOf owed state) →
    ∀ state, (act next).Obeys launcherOf owed state

namespace Act.Obeys

variable {launcherOf}

theorem pure (value : Output) :
    (Pure.pure value : Act State Result Fault Output).Obeys launcherOf :=
  fun _ _ obeys => obeys (.ok value)

theorem throw (stop : Stop Fault) :
    (throw stop : Act State Result Fault Output).Obeys launcherOf :=
  fun _ _ obeys => obeys (.error stop)

/-- What follows an act that obeys may depend on what the process owes. -/
theorem bindWith {act : Act State Result Fault Output}
    {rest : Output → Act State Result Fault Other} (first : act.Obeys launcherOf)
    {next : Except (Stop Fault) Other → Process State Result} {owed : List LaunchId}
    (stopped : ∀ stop state, (next (.error stop)).Obeys launcherOf owed state)
    (second : ∀ output state, (rest output next).Obeys launcherOf owed state) (state : State) :
    ((act >>= rest) next).Obeys launcherOf owed state := by
  refine first _ owed (fun output => ?_) state
  cases output with
  | ok value => exact second value
  | error stop => exact stopped stop

theorem bind {act : Act State Result Fault Output} {rest : Output → Act State Result Fault Other}
    (first : act.Obeys launcherOf) (second : ∀ output, (rest output).Obeys launcherOf) :
    (act >>= rest).Obeys launcherOf :=
  fun next owed obeys => bindWith first (fun stop => obeys (.error stop))
    fun output => second output next owed obeys

theorem attempt {act : Act State Result Fault Output} (obeys : act.Obeys launcherOf) :
    (Act.attempt act).Obeys launcherOf :=
  fun _ owed obeys' => obeys _ owed fun output => obeys' (.ok output)

theorem look : (Act.look : Act State Result Fault State).Obeys launcherOf :=
  fun _ _ obeys state => obeys (.ok state) state

theorem clock : (Act.clock : Act State Result Fault Moment).Obeys launcherOf :=
  fun _ _ obeys state now => obeys (.ok now) state

theorem change {update : State → State}
    (same : ∀ state, launcherOf (update state) = launcherOf state) :
    (Act.change update : Act State Result Fault Unit).Obeys launcherOf := by
  intro next owed obeys state
  refine ⟨[], owed, ?_, obeys (.ok ()) _⟩
  rw [same]
  exact .nothing

theorem step {update : State → State × Output}
    (same : ∀ state, launcherOf (update state).1 = launcherOf state) :
    (Act.step update : Act State Result Fault Output).Obeys launcherOf := by
  intro next owed obeys state
  refine ⟨[], owed, ?_, obeys (.ok (update state).2) _⟩
  rw [same]
  exact .nothing

/-- What waits obeys if it does however the wait ends. -/
theorem afterWake {next : Except (Stop Fault) Unit → Process State Result} {owed : List LaunchId}
    (obeys : ∀ output state, (next output).Obeys launcherOf owed state) (wake : Wake)
    (state : State) : (Act.afterWake next wake).Obeys launcherOf owed state := by
  cases wake with
  | resumed => exact obeys (.ok ()) state
  | interrupted => exact obeys (.error .interrupted) state

theorem pause : (Act.pause : Act State Result Fault Unit).Obeys launcherOf :=
  fun _ _ obeys _ => afterWake obeys

theorem sleep (span : Moment) : (Act.sleep span : Act State Result Fault Unit).Obeys launcherOf :=
  fun _ _ obeys _ => afterWake obeys

theorem awaitAny (tasks : List TaskId) :
    (Act.awaitAny tasks : Act State Result Fault Unit).Obeys launcherOf :=
  fun _ _ obeys _ => afterWake obeys

theorem awaitCancel (token : TokenId) :
    (Act.awaitCancel token : Act State Result Fault Unit).Obeys launcherOf :=
  fun _ _ obeys _ => afterWake obeys

theorem ended (task : TaskId) :
    (Act.ended task : Act State Result Fault (Option (Option Result))).Obeys launcherOf :=
  fun _ _ obeys state result => obeys (.ok result) state

theorem interrupt (task : TaskId) :
    (Act.interrupt task : Act State Result Fault Unit).Obeys launcherOf :=
  fun _ _ obeys => obeys (.ok ())

theorem cancelled (token : TokenId) :
    (Act.cancelled token : Act State Result Fault (Option String)).Obeys launcherOf :=
  fun _ _ obeys state reason => obeys (.ok reason) state

theorem setDeadline (span : Moment) :
    (Act.setDeadline span : Act State Result Fault DeadlineId).Obeys launcherOf :=
  fun _ _ obeys state deadline => obeys (.ok deadline) state

theorem clearDeadline (deadline : DeadlineId) :
    (Act.clearDeadline deadline : Act State Result Fault Bool).Obeys launcherOf :=
  fun _ _ obeys state passed => obeys (.ok passed) state

theorem start {child : Process State Result} (obeys : ∀ later, child.Obeys launcherOf [] later) :
    (Act.start child : Act State Result Fault TaskId).Obeys launcherOf :=
  fun _ owed obeys' state => ⟨[], owed, .refl _, obeys, fun task => obeys' (.ok task) state⟩

/-- A task that does an act that obeys owes nothing. -/
theorem run {act : Act State Result Fault Unit} (obeys : act.Obeys launcherOf) (state : State) :
    (Act.run act).Obeys launcherOf [] state :=
  obeys (fun _ => .finish none) [] (fun _ _ => trivial) state

theorem toProcess {act : Act State (Except Fault Output) Fault Output}
    (obeys : act.Obeys launcherOf) (state : State) :
    (Act.toProcess act).Obeys launcherOf [] state := by
  refine obeys _ [] (fun output later => ?_) state
  cases output with
  | ok value => exact trivial
  | error stop => cases stop <;> exact trivial

/-- Acts obey if the tasks that they start do, which owe nothing at first. -/
theorem closed {Value : Type} : Act.Closed
    (fun act : Act State (Except Fault Value) Fault _ => act.Obeys launcherOf)
    fun child => ∀ later, child.Obeys launcherOf [] later :=
  Act.Composes.closed
    { pure, throw, bind, attempt, look, clock, pause, sleep, start, awaitAny, cancelled }
    interrupt ended setDeadline clearDeadline

end Act.Obeys

/-- Holds of the parts of which what was put in is there. -/
def Part.Lawful {Whole Inner : Type} (part : Part Whole Inner) : Prop :=
  ∀ inner whole, part.get (part.set inner whole) = inner

/-- The launcher on a workbench. -/
def Part.launcher (part : Part State Workbench) (state : State) : Launcher :=
  (part.get state).surround.launcher

namespace ValidatorClient

/-! ## What carries over to a request -/

section Closed

variable {holds : ∀ {Output : Type}, ValidationAct State Output → Prop}
  {admits : Process State (Except ValidationFault ValidatorOutput) → Prop}
  (closed : Act.Closed holds admits) {part : Part State Workbench} {settings : ValidatorSettings}
include closed

theorem holds_look : holds part.look :=
  closed.bind closed.look fun _ => closed.pure _

theorem holds_refuse (fault : Option NetworkFault) :
    holds (refuse fault : ValidationAct State _) := by
  cases fault with
  | some fault => exact closed.fail _
  | none => exact closed.pure _

section Recorded

variable (records : ∀ event, holds (part.change (·.record event)))
include records

theorem holds_converse (step : ConnectionStep) (request : String) :
    holds (converse part step request) := by
  unfold converse
  refine closed.bind (records _) fun _ => closed.bind (holds_refuse closed _) fun _ => ?_
  have rest : holds (do
      Act.sleepSeconds step.replySeconds
      refuse step.readFault
      return ValidatorOutput.split (String.ofList (Text.decodeMarking step.reply)) :
      ValidationAct State ValidatorOutput) :=
    closed.bind (closed.sleepSeconds _) fun _ =>
      closed.bind (holds_refuse closed _) fun _ => closed.pure _
  dsimp only
  split
  · exact closed.bind (records _) fun _ => rest
  · exact rest

theorem holds_hangUp (step : ConnectionStep) : holds (hangUp part step) := by
  refine closed.bind (records _) fun _ => ?_
  refine closed.bind (closed.attempt (holds_refuse closed _)) fun ended => ?_
  split
  · exact closed.pure _
  · exact closed.pure _
  · exact closed.throw _

theorem holds_roundTrip {request : String}
    (connects : ∀ now, holds (part.step fun bench =>
      let bench := bench.record (.connect (address settings) now bench.workspace.files)
      let (surround, step) := bench.surround.takeConnection
      ({ bench with surround }, step))) :
    holds (roundTrip part settings request) := by
  refine closed.bind closed.clock fun now => closed.bind (connects now) fun step => ?_
  refine closed.bind (closed.sleepSeconds _) fun _ => ?_
  refine closed.bind (holds_refuse closed _) fun _ => ?_
  exact closed.ensure (holds_converse closed records step request)
    (holds_hangUp closed records step)

end Recorded

/-- The round trip is done by a task of its own, so that only this task matters. -/
theorem holds_exchange {request : String}
    (admitted : admits (Act.toProcess (roundTrip part settings request))) :
    holds (exchange part settings request) := by
  refine closed.bind (closed.attempt (closed.within _ _ admitted)) fun ended => ?_
  split
  · exact closed.pure _
  · exact closed.pure _
  · exact closed.throw _

theorem holds_awaitLaunch {number : LaunchId}
    (collects : holds (part.step fun bench =>
      let (launcher, learned) := bench.surround.launcher.collect number
      (bench.withLauncher launcher, learned))) :
    holds (awaitLaunch part number) := by
  unfold awaitLaunch
  refine closed.bind (holds_look closed) fun bench => ?_
  dsimp only
  split
  · exact closed.bind (closed.awaitAny _) fun _ => collects
  · exact collects

section Changed

variable (changes : ∀ update, holds (part.change update))
  (steps : ∀ {Output : Type} (update : Workbench → Workbench × Output), holds (part.step update))
include changes steps

theorem holds_launch (program : Path) (number : LaunchId) :
    holds (launch part settings program number) := by
  refine closed.bind closed.clock fun now => closed.bind (steps _) fun step => ?_
  exact closed.bind (closed.sleepSeconds _) fun _ => changes _

/-- The launch is done by a task of its own. -/
theorem holds_ensureStarted {program : Path}
    (admitted : ∀ number, admits (Act.run (launch part settings program number))) :
    holds (ensureStarted part settings program) := by
  refine closed.bind (steps _) fun step => ?_
  cases step with
  | ready => exact closed.pure _
  | await number => exact holds_awaitLaunch closed (steps _)
  | begin number =>
      refine closed.bind (closed.start (admitted number)) fun task => ?_
      exact closed.bind (changes _) fun _ => holds_awaitLaunch closed (steps _)

end Changed

theorem holds_attempts {exchange : ValidationAct State (Except NetworkFault ValidatorOutput)}
    {pause : ValidationAct State Unit} (exchanges : holds exchange) (pauses : holds pause)
    (count : Nat) (last : NetworkFault) : holds (Retry.attempts exchange pause count last) := by
  induction count generalizing last with
  | zero => exact closed.pure _
  | succ count ih =>
      refine closed.bind exchanges fun answer => ?_
      cases answer with
      | ok reply => exact closed.pure _
      | error fault =>
          dsimp only
          split
          · exact closed.bind pauses fun _ => ih fault
          · exact closed.pure _

theorem holds_send {program : Path} {request : String}
    (exchanges : holds (exchange part settings request))
    (starts : holds (ensureStarted part settings program)) :
    holds (send part settings program request) := by
  have pauses := closed.sleepSeconds settings.retryDelaySeconds
  have answers : holds (Retry.send (exchange part settings request)
      (ensureStarted part settings program) (Act.sleepSeconds settings.retryDelaySeconds)
      settings.connectRetries.toNat) := by
    refine closed.bind exchanges fun answer => ?_
    cases answer with
    | ok reply => exact closed.pure _
    | error fault =>
        dsimp only
        split
        · refine closed.bind starts fun started => ?_
          cases started with
          | ok _ => exact holds_attempts closed exchanges pauses _ _
          | error reason => exact closed.pure _
        · exact closed.pure _
  refine closed.bind answers fun answer => ?_
  cases answer with
  | ok output => exact closed.pure _
  | error fault => exact closed.fail _

theorem holds_check [Host] {file : String}
    (sends : ∀ program, holds (send part settings program (checkRequest file)))
    (admitted : ∀ program,
      admits (Act.toProcess (send part settings program (checkRequest file))))
    (watched : ∀ token,
      admits (Act.run (Act.awaitCancel token : ValidationAct State Unit)))
    (token : Option TokenId) : holds (check part settings file token) := by
  refine closed.bind (holds_look closed) fun bench => ?_
  split
  · exact closed.fail _
  · exact closed.cancellable (sends _) (admitted _) _ watched token

end Closed

/-! ## Requests obey -/

section Acts

variable {part : Part State Workbench} (lawful : part.Lawful) (settings : ValidatorSettings)
include lawful

theorem obeys_change {update : Workbench → Workbench}
    (same : ∀ bench, (update bench).surround.launcher = bench.surround.launcher) :
    (part.change update : Act State Result Fault Unit).Obeys part.launcher := by
  refine Act.Obeys.change fun state => ?_
  rw [Part.launcher, lawful, same]
  rfl

theorem obeys_step {update : Workbench → Workbench × Output}
    (same : ∀ bench, (update bench).1.surround.launcher = bench.surround.launcher) :
    (part.step update : Act State Result Fault Output).Obeys part.launcher := by
  refine Act.Obeys.step fun state => ?_
  rw [Part.launcher, lawful, same]
  rfl

theorem obeys_roundTrip (request : String) :
    (roundTrip part settings request).Obeys part.launcher :=
  holds_roundTrip Act.Obeys.closed (fun _ => obeys_change lawful fun _ => rfl)
    fun _ => obeys_step lawful fun _ => rfl

theorem obeys_exchange (request : String) :
    (exchange part settings request).Obeys part.launcher :=
  holds_exchange Act.Obeys.closed (obeys_roundTrip lawful settings request).toProcess

/-- A task that owes the end of a launch may end it. -/
theorem obeys_finish (number : LaunchId) (outcome : Except String Unit) (state : State) :
    ((part.change fun bench =>
        bench.withLauncher (bench.surround.launcher.finish number outcome) :
      ValidationAct State Unit) fun _ => .finish none).Obeys part.launcher [number] state := by
  refine ⟨[.finish number outcome], [number].erase number, ?_, trivial⟩
  rw [Part.launcher, Part.launcher, lawful]
  exact .finish (List.mem_singleton_self number) outcome

/-- A launch obeys as long as it owes its end. -/
theorem obeys_launch (program : Path) (number : LaunchId) (later : State) :
    (Act.run (launch part settings program number)).Obeys part.launcher [number] later := by
  have stopped : ∀ (stop : Stop ValidationFault) (state : State),
      (Process.finish none : Process State (Except ValidationFault ValidatorOutput)).Obeys
        part.launcher [number] state := fun _ _ => trivial
  unfold Act.run launch
  refine Act.Obeys.bindWith .clock stopped (fun now => ?_) later
  refine Act.Obeys.bindWith (obeys_step lawful fun _ => rfl) stopped fun step => ?_
  refine Act.Obeys.bindWith (Act.Obeys.closed.sleepSeconds _) stopped fun _ state => ?_
  exact obeys_finish lawful number _ state

theorem obeys_collect (number : LaunchId) :
    (part.step fun bench =>
      let (launcher, learned) := bench.surround.launcher.collect number
      (bench.withLauncher launcher, learned) :
      ValidationAct State (Except String Unit)).Obeys part.launcher := by
  intro next owed obeys state
  refine ⟨[.collect number], owed, ?_, obeys _ _⟩
  rw [Part.launcher, Part.launcher, lawful]
  exact .collect number

theorem obeys_awaitLaunch (number : LaunchId) :
    (awaitLaunch part number).Obeys part.launcher :=
  holds_awaitLaunch Act.Obeys.closed (obeys_collect lawful number)

/-- What follows a request for a launcher owes the launch that the request began. -/
theorem obeys_request {rest : LaunchStep → ValidationAct State Output}
    {next : Except (Stop ValidationFault) Output →
      Process State (Except ValidationFault ValidatorOutput)} {owed : List LaunchId}
    (obeys : ∀ step later, (rest step next).Obeys part.launcher (step.begun ++ owed) later)
    (state : State) :
    (((part.step fun bench =>
      let (launcher, step) := bench.surround.launcher.request
      (bench.withLauncher launcher, step)) >>= rest) next).Obeys part.launcher owed state := by
  refine ⟨[.request], (part.launcher state).request.2.begun ++ owed, ?_, obeys _ _⟩
  rw [Part.launcher, Part.launcher, lawful]
  exact .request

theorem obeys_ensureStarted (program : Path) :
    (ensureStarted part settings program).Obeys part.launcher := by
  intro next owed obeys
  refine obeys_request lawful fun step later => ?_
  cases step with
  | ready => exact obeys (.ok (.ok ())) later
  | await number => exact obeys_awaitLaunch lawful number next owed obeys later
  | begin number =>
      -- The end of the launch is owed by the task that is started for it.
      refine ⟨[number], owed, .refl _, obeys_launch lawful settings program number, fun task => ?_⟩
      have registered : (part.change fun bench =>
          { bench with surround :=
            { bench.surround with launchTasks := bench.surround.launchTasks ++ [task] } } :
          ValidationAct State Unit).Obeys part.launcher := obeys_change lawful fun _ => rfl
      exact Act.Obeys.bind registered (fun _ => obeys_awaitLaunch lawful number) next owed obeys
        later

theorem obeys_send (program : Path) (request : String) :
    (send part settings program request).Obeys part.launcher :=
  holds_send Act.Obeys.closed (obeys_exchange lawful settings request)
    (obeys_ensureStarted lawful settings program)

/-- **A request to the validator obeys.** -/
theorem obeys_check [Host] (file : String) (token : Option TokenId) :
    (check part settings file token).Obeys part.launcher :=
  holds_check Act.Obeys.closed (fun program => obeys_send lawful settings program _)
    (fun program => (obeys_send lawful settings program _).toProcess)
    (fun token => Act.Obeys.run (.awaitCancel token)) token

end Acts

/-- What may happen next around the requests to a validator. -/
inductive Happening where
  /-- A request to check a file begins, which may have a token. -/
  | call (file : String) (token : Option TokenId)
  | makeToken
  | cancel (token : TokenId) (reason : String)
  /-- A task is interrupted, in whichever wait it is. -/
  | interrupt (task : TaskId)
  /-- A turn is taken, whichever turns are in the queue before it. -/
  | turn (turn : Turn)
  | moveTo (moment : Moment)

/-- The turn that a happening is. -/
def Happening.turn? : Happening → Option Turn
  | .turn taken => some taken
  | _ => none

/-- The tasks of a validator client. -/
abbrev Tasks (State : Type) : Type := Agenda State (Except ValidationFault ValidatorOutput)

section

variable [Host]

/-- The tasks after something happened. -/
def happen (part : Part State Workbench) (settings : ValidatorSettings) (tasks : Tasks State) :
    Happening → Tasks State
  | .call file token => tasks.start (Act.toProcess (check part settings file token))
  | .makeToken => { tasks with tokens := tasks.tokens.push ⟨none, []⟩ }
  | .cancel token reason => tasks.cancel token reason
  | .interrupt task => tasks.interrupt task
  | .turn turn => { tasks with queue := tasks.queue.erase turn }.take turn
  | .moveTo moment => tasks.moveTo moment

/-- The tasks after all that happened, the last of it first. -/
def tasksAfter (part : Part State Workbench) (settings : ValidatorSettings) (state : State) :
    List Happening → Tasks State
  | [] => .initial state
  | next :: earlier => happen part settings (tasksAfter part settings state earlier) next

/-- What the tasks do by themselves, first come, first served, is such happenings. -/
theorem runWithin_tasksAfter (part : Part State Workbench) (settings : ValidatorSettings)
    (state : State) (limit : Option Moment) (turns : Nat) (happenings : List Happening) :
    ∃ further, Agenda.runWithin limit turns (tasksAfter part settings state happenings) =
      tasksAfter part settings state (further ++ happenings) := by
  induction turns generalizing happenings with
  | zero => exact ⟨[], rfl⟩
  | succ turns ih =>
      have onward : ∀ next, ∃ further,
          Agenda.runWithin limit turns (tasksAfter part settings state (next :: happenings)) =
            tasksAfter part settings state (further ++ happenings) := by
        intro next
        obtain ⟨further, same⟩ := ih (next :: happenings)
        exact ⟨further ++ [next], by rw [same, List.append_assoc]; rfl⟩
      unfold Agenda.runWithin
      split
      · next turn rest queue =>
          have head : rest = (tasksAfter part settings state happenings).queue.erase turn := by
            rw [queue, List.erase_cons_head]
          rw [head]
          exact onward (.turn turn)
      · split
        · exact ⟨[], rfl⟩
        · next due _ =>
            split
            · exact onward (.moveTo due)
            · exact ⟨[], rfl⟩

section Tracked

variable {part : Part State Workbench} (lawful : part.Lawful) (settings : ValidatorSettings)
include lawful

/-- **Whatever happens is legal moves.** -/
theorem tracks_happen {tasks : Tasks State} {history : List LaunchMove}
    {owed : TaskId → List LaunchId} (tracks : tasks.Tracks part.launcher none history owed)
    (next : Happening) :
    ∃ moves owed', (happen part settings tasks next).Tracks part.launcher none (moves ++ history)
      owed' := by
  cases next with
  | call file token =>
      obtain ⟨owed', tracks'⟩ := tracks.begin (obeys_check lawful settings file token).toProcess
      exact ⟨[], owed', tracks'⟩
  | makeToken => exact ⟨[], owed, tracks.congr rfl rfl⟩
  | cancel token reason =>
      have roused := tasks.rouses_cancel token reason
      exact ⟨[], owed, tracks.congr roused.state roused.plan_eq⟩
  | interrupt task =>
      exact ⟨[], owed, tracks.congr (tasks.state_interrupt task) (tasks.plan_interrupt task)⟩
  | turn turn =>
      let taken : Tasks State := { tasks with queue := tasks.queue.erase turn }
      have tracks' : taken.Tracks part.launcher none history owed := tracks.congr rfl rfl
      exact tracks'.take turn
  | moveTo moment => exact ⟨[], owed, tracks.congr rfl rfl⟩

end Tracked

/-- All that happened, as moves of the launcher, with what the tasks owe then. -/
structure Record (part : Part State Workbench) (settings : ValidatorSettings)
    (state : State) (happenings : List Happening) where
  moves : List LaunchMove
  owed : TaskId → List LaunchId
  tracks : (tasksAfter part settings state happenings).Tracks part.launcher none moves owed

section Recorded

variable {part : Part State Workbench} (lawful : part.Lawful) (settings : ValidatorSettings)
  {state : State} (unstarted : part.launcher state = .initial)
include lawful unstarted

/-- The record of all that happened; what happens next only adds to it. -/
noncomputable def record : (happenings : List Happening) → Record part settings state happenings
  | [] => ⟨[], fun _ => [], trivial, unstarted, nofun, nofun, nofun, fun _ => List.nodup_nil⟩
  | next :: earlier =>
    let past := record earlier
    have step := tracks_happen lawful settings past.tracks next
    ⟨step.choose ++ past.moves, step.choose_spec.choose, step.choose_spec.choose_spec⟩

/-- A longer past records the same moves first, and perhaps further ones. -/
theorem moves_record_suffix {earlier later : List Happening} (among : earlier <:+ later) :
    (record lawful settings unstarted earlier).moves <:+
      (record lawful settings unstarted later).moves := by
  induction later with
  | nil => rw [List.suffix_nil.mp among]
  | cons next rest ih =>
      rcases List.suffix_cons_iff.mp among with rfl | among
      · exact List.suffix_rfl
      · exact (ih among).trans (List.suffix_append _ _)

/-- **The validator is started once, but for launches that a late request displaced.**  This holds
for any number of requests, whatever order their turns have and whichever of them are interrupted or
cancelled: all that happened is legal moves of the launcher, to which what happens later only adds,
and once the validator is known to be started it stays so, and no further launch begins. -/
theorem startsOnce : ∃ moves : List Happening → List LaunchMove,
    (∀ happenings, Launcher.Legal (moves happenings) ∧ Launcher.StartsOnce (moves happenings) ∧
      part.launcher (tasksAfter part settings state happenings).state =
        Launcher.after (moves happenings)) ∧
    (∀ earlier later, earlier <:+ later → moves earlier <:+ moves later) ∧
    ∀ earlier later, earlier <:+ later →
      (part.launcher (tasksAfter part settings state earlier).state).isStarted →
        (part.launcher (tasksAfter part settings state later).state).isStarted ∧
          (part.launcher (tasksAfter part settings state later).state).launches.length =
            (part.launcher (tasksAfter part settings state earlier).state).launches.length := by
  refine ⟨fun happenings => (record lawful settings unstarted happenings).moves, ?_, ?_, ?_⟩
  · intro happenings
    have tracks := (record lawful settings unstarted happenings).tracks
    exact ⟨tracks.legal, tracks.legal.isStartedOnce, tracks.launcher_eq⟩
  · exact fun earlier later among => moves_record_suffix lawful settings unstarted among
  · intro earlier later among started
    have grows := moves_record_suffix lawful settings unstarted among
    rw [(record lawful settings unstarted earlier).tracks.launcher_eq] at started ⊢
    rw [(record lawful settings unstarted later).tracks.launcher_eq]
    exact Launcher.started_of_suffix grows started

end Recorded

end

/-! ## A launch that is displaced -/

section Displacement

open scoped Trial

/-- Files among which there is a program of the validator. -/
def jarStore : FileStore :=
  ⟨⟨[(⟨.root, []⟩, .directory), (⟨.root, ["umplesync.jar"]⟩, .file [])]⟩, .allowed⟩

/-- Settings that name it. -/
def jarSettings : ValidatorSettings := { jarPath := some "/umplesync.jar" }

/-- The validator cannot be started at first and then takes five seconds; nobody ever listens. -/
private def slowStarter : Workbench :=
  .initial ⟨none, ∅, jarStore, ∅⟩
    (.initial [] [{ fault := some (.system (some 2) "No such file or directory") },
      { seconds := 5 }])

/-- Four requests, first come, first served.  The launch of the first one has failed when two others
ask: one learns of it at once and the other one begins a second launch.  Then the first request
learns of it too, and the last one asks. -/
private def fourRequests : List Happening :=
  [.turn (.task 10), .turn (.task 6), .turn (.task 0), .turn (.task 9), .turn (.wake 6 4),
    .turn (.wake 0 3), .turn (.task 3), .turn (.task 8), .turn (.task 2), .turn (.task 7),
    .turn (.wake 3 2), .turn (.task 8), .turn (.wake 2 1), .turn (.task 7), .turn (.task 5),
    .turn (.task 6), .turn (.task 4), .turn (.task 0), .turn (.task 5), .call "/w/g.ump" none,
    .turn (.task 4), .turn (.wake 0 0), .turn (.task 3), .turn (.task 2), .turn (.task 1),
    .call "/w/e.ump" none, .call "/w/d.ump" none, .turn (.task 1), .turn (.task 0),
    .call "/w/a.ump" none]

/-- Both launches that are in flight then succeed. -/
private def fiveSecondsLater : List Happening :=
  [.turn (.task 10), .turn (.task 9), .turn (.wake 10 8), .turn (.wake 9 6), .moveTo 5000000000] ++
    fourRequests

/-- The launches of the four requests when so much has happened. -/
private def launchesAfter (happenings : List Happening) : List LaunchState :=
  (Part.whole.launcher (tasksAfter Part.whole jarSettings slowStarter happenings).state).launches

/-- Every turn of the four requests is the first one in the queue. -/
theorem fourRequests_inOrder :
    ∀ past ∈ fourRequests.tails, ∀ turn ∈ past.head?.bind (·.turn?),
      (tasksAfter Part.whole jarSettings slowStarter past.tail).queue.head? = some turn := by
  decide +kernel

/-- Requests that overlap may start the validator twice: the last of the four begins a launch while
the second one is in flight, and both succeed. -/
theorem launchesAfter_fourRequests :
    launchesAfter fourRequests =
        [.failed "[Errno 2] No such file or directory", .inFlight, .inFlight] ∧
      launchesAfter fiveSecondsLater =
        [.failed "[Errno 2] No such file or directory", .succeeded, .succeeded] := by
  decide +kernel

/-- The second launch of the four requests was displaced, and no further one begins afterwards. -/
theorem startsOnce_fourRequests :
    ∃ moves, Launcher.Legal moves ∧ Launcher.StartsOnce moves ∧ Launcher.Displaced moves 1 ∧
      Part.whole.launcher (tasksAfter Part.whole jarSettings slowStarter fiveSecondsLater).state =
        Launcher.after moves ∧
      ∀ later, fiveSecondsLater <:+ later → (launchesAfter later).length = 3 := by
  obtain ⟨moves, tells, -, lasting⟩ :=
    @startsOnce Workbench _ Part.whole (fun _ _ => rfl) jarSettings slowStarter rfl
  obtain ⟨legal, once, same⟩ := tells fiveSecondsLater
  have launches := launchesAfter_fourRequests.2
  rw [launchesAfter, same] at launches
  refine ⟨moves fiveSecondsLater, legal, once, ?_, same, fun later among => ?_⟩
  · exact once.once 1 2 (by decide) (by rw [launches]; rfl) (by rw [launches]; rfl)
  · have started : (Part.whole.launcher
        (tasksAfter Part.whole jarSettings slowStarter fiveSecondsLater).state).isStarted := by
      rw [same, once.started_iff, launches]
      simp
    have length := (lasting fiveSecondsLater later among started).2
    rw [same, launches] at length
    exact length

end Displacement

end ValidatorClient

end ModelAssist
