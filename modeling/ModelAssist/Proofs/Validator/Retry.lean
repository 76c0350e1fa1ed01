import ModelAssist.Proofs.Concurrency.Undisturbed
import ModelAssist.Proofs.FileStore
import ModelAssist.Proofs.Validator.Exchange

/-!
# The retry protocol

How a request to the validator is answered, by the outcomes of one exchange after another and by the
outcome of a launch (`Retry.Protocol`).  A client whose launches were all learned of keeps to the
protocol, and then its launches were again all learned of
(`ValidatorClient.check_follows_protocol`).
-/

namespace ModelAssist

/-- What a start of the validator comes to. -/
def StartStep.outcome (step : StartStep) : Except String Unit :=
  match step.fault with
  | some fault => .error fault.message
  | none => .ok ()

namespace Retry

variable {Reply : Type}

/-- Holds of the outcomes of exchanges that found nobody listening. -/
def FindsNobody (outcome : Except NetworkFault Reply) : Prop :=
  ∃ fault, outcome = .error fault ∧ fault.isConnection = true

/-- How further attempts answer a request after a first exchange that found nobody: the first of
them that finds somebody decides, and the last one if there is no such. -/
inductive Answered (outcome : Nat → Except NetworkFault Reply) (retries : Nat) :
    Except SendFault Reply → (attempts : Nat) → Prop
  | replied {earlier : Nat} {reply : Reply} (within : earlier < retries)
      (nobody : ∀ index < earlier, FindsNobody (outcome (index + 1)))
      (replies : outcome (earlier + 1) = .ok reply) :
      Answered outcome retries (.ok reply) (earlier + 1)
  | failed {earlier : Nat} {fault : NetworkFault} (within : earlier < retries)
      (nobody : ∀ index < earlier, FindsNobody (outcome (index + 1)))
      (fails : outcome (earlier + 1) = .error fault) (other : fault.isConnection = false) :
      Answered outcome retries (.error (.unreachable fault.message)) (earlier + 1)
  | exhausted {last : NetworkFault} (nobody : ∀ index < retries, FindsNobody (outcome (index + 1)))
      (fails : outcome retries = .error last) :
      Answered outcome retries
        (.error (if last.isTimeout then .late else .unreachable last.message)) retries

/-- How a request is answered, with the count of its exchanges and of the launches for it. -/
inductive Protocol (outcome : Nat → Except NetworkFault Reply) (retries : Nat) (isStarted : Bool)
    (launch : Except String Unit) : Except SendFault Reply → (exchanges launches : Nat) → Prop
  | replied {reply : Reply} (replies : outcome 0 = .ok reply) :
      Protocol outcome retries isStarted launch (.ok reply) 1 0
  | failed {fault : NetworkFault} (fails : outcome 0 = .error fault)
      (other : fault.isConnection = false) :
      Protocol outcome retries isStarted launch (.error (.unreachable fault.message)) 1 0
  | notStarted {reason : String} (nobody : FindsNobody (outcome 0)) (unstarted : isStarted = false)
      (fails : launch = .error reason) :
      Protocol outcome retries isStarted launch (.error (.notStarted reason)) 1 1
  | started {answer : Except SendFault Reply} {attempts : Nat} (nobody : FindsNobody (outcome 0))
      (started : isStarted = true) (answered : Answered outcome retries answer attempts) :
      Protocol outcome retries isStarted launch answer (attempts + 1) 0
  | launched {answer : Except SendFault Reply} {attempts : Nat} (nobody : FindsNobody (outcome 0))
      (unstarted : isStarted = false) (starts : launch = .ok ())
      (answered : Answered outcome retries answer attempts) :
      Protocol outcome retries isStarted launch answer (attempts + 1) 1

variable {outcome : Nat → Except NetworkFault Reply} {retries attempts : Nat}
  {answer : Except SendFault Reply}

/-- Not more attempts than allowed are answered. -/
theorem Answered.le (answered : Answered outcome retries answer attempts) : attempts ≤ retries := by
  cases answered with
  | replied within => exact within
  | failed within => exact within
  | exhausted => exact Nat.le_refl _

/-- One more attempt that found nobody. -/
theorem Answered.later (nobody : FindsNobody (outcome 1))
    (answered : Answered (fun index => outcome (index + 1)) retries answer attempts) :
    Answered outcome (retries + 1) answer (attempts + 1) := by
  have onward : ∀ {bound}, (∀ index < bound, FindsNobody (outcome (index + 1 + 1))) →
      ∀ index < bound + 1, FindsNobody (outcome (index + 1)) := by
    intro bound finds index below
    cases index with
    | zero => exact nobody
    | succ index => exact finds index (Nat.lt_of_succ_lt_succ below)
  cases answered with
  | replied within finds replies => exact .replied (Nat.succ_lt_succ within) (onward finds) replies
  | failed within finds fails other =>
      exact .failed (Nat.succ_lt_succ within) (onward finds) fails other
  | exhausted finds fails => exact .exhausted (onward finds) fails

/-- A request takes at most one exchange more than there are further attempts. -/
theorem Protocol.le {isStarted : Bool} {launch : Except String Unit} {exchanges launches : Nat}
    (protocol : Protocol outcome retries isStarted launch answer exchanges launches) :
    exchanges ≤ retries + 1 := by
  cases protocol with
  | started _ _ answered | launched _ _ _ answered => exact Nat.succ_le_succ answered.le
  | _ => exact Nat.succ_le_succ (Nat.zero_le _)

end Retry

/-- Holds of the surroundings of a client all of whose requests came to their ends: its launches
came about by legal moves, and each of them was learned of. -/
structure Surround.Rests (surround : Surround) : Prop where
  learned : ∃ history, Launcher.Legal history ∧ Launcher.Learned history ∧
    surround.launcher = Launcher.after history
  launchTasks : surround.launchTasks.length = surround.launcher.launches.length

/-- The surroundings rest at the beginning. -/
theorem Surround.Rests.initial (connections : List ConnectionStep) (starts : List StartStep) :
    (Surround.initial connections starts).Rests := by
  refine ⟨⟨[], trivial, ?_, rfl⟩, rfl⟩
  intro earlier launch among
  cases List.suffix_nil.mp among

theorem Surround.Rests.congr {before after : Surround} (rests : before.Rests)
    (launcher : after.launcher = before.launcher)
    (launchTasks : after.launchTasks = before.launchTasks) : after.Rests := by
  refine ⟨launcher.symm ▸ rests.learned, ?_⟩
  rw [launcher, launchTasks]
  exact rests.launchTasks

/-- The surroundings rest again once a launch that a request began has been learned of. -/
theorem Surround.Rests.launched {history : List LaunchMove} {number : LaunchId} {after : Surround}
    (legal : Launcher.Legal history) (learned : Launcher.Learned history)
    (begins : (Launcher.after history).request.2 = .begin number) (outcome : Except String Unit)
    (launcher : after.launcher =
      Launcher.after (.collect number :: .finish number outcome :: .request :: history))
    (launchTasks : after.launchTasks.length = number + 1) : after.Rests := by
  obtain ⟨legal', learned'⟩ := legal.launched learned begins outcome
  refine ⟨⟨_, legal', learned', launcher⟩, ?_⟩
  rw [launchTasks, launcher, Launcher.length_launched begins]

namespace ValidatorClient

/-- Holds if a client answered a request by the protocol, which led from its surroundings to
others. -/
structure Follows (settings : ValidatorSettings) (answer : Except SendFault ValidatorOutput)
    (exchanges launches : Nat) (before after : Surround) : Prop where
  protocol : Retry.Protocol
    (fun index => (Surround.stepAt before.connections index).outcome
      (Span.ofSeconds settings.timeoutSeconds))
    settings.connectRetries.toNat before.launcher.isStarted
    (Surround.stepAt before.starts 0).outcome answer exchanges launches
  passes : before.Passes exchanges launches after
  rests : after.Rests

variable {State : Type}

section Requests

variable {part : Part State Workbench} (lawful : part.Lawful) (settings : ValidatorSettings)
include lawful

/-- **Further attempts are made until one finds somebody**, or until none is left. -/
theorem attempts_bring (request : String) (retries : Nat) {last : NetworkFault} {before : State}
    {outcome : Nat → Except NetworkFault ValidatorOutput} (seen : outcome 0 = .error last)
    (script : ∀ index, outcome (index + 1) =
      (Surround.stepAt (part.surround before).connections index).outcome
        (Span.ofSeconds settings.timeoutSeconds)) :
    (Retry.attempts (exchange part settings request) (Act.sleepSeconds settings.retryDelaySeconds)
      retries last).Brings before fun ended after => ∃ answer attempts, ended = .ok answer ∧
        Retry.Answered outcome retries answer attempts ∧
          (part.surround before).Tries attempts (part.surround after) := by
  have noneYet : ∀ index < 0, Retry.FindsNobody (outcome (index + 1)) :=
    fun _ below => absurd below (Nat.not_lt_zero _)
  -- On the attempts that are left; what the first of them came to is what the next one has seen.
  induction retries generalizing last before outcome with
  | zero => exact .pure ⟨_, 0, rfl, .exhausted noneYet seen, .refl _⟩
  | succ retries ih =>
      refine .bind (exchange_brings lawful settings request before) ?_ ?_
      · rintro value middle ⟨same, tries⟩
        have first : outcome 1 = value := (script 0).trans (Except.ok.inj same).symm
        cases value with
        | ok reply => exact .pure ⟨_, 1, rfl, .replied (Nat.succ_pos _) noneYet first, tries⟩
        | error fault =>
            dsimp only
            split
            · next nobody =>
                have script' : ∀ index, outcome (index + 1 + 1) =
                    (Surround.stepAt (part.surround middle).connections index).outcome
                      (Span.ofSeconds settings.timeoutSeconds) := by
                  intro index
                  rw [script, tries.passes.script, Nat.add_comm]
                have pauses : (Act.sleepSeconds settings.retryDelaySeconds :
                    ValidationAct State Unit).Brings middle fun ended after =>
                      ended = .ok () ∧ after = middle := .sleepSeconds ⟨rfl, rfl⟩
                refine .bind pauses ?_ ?_
                · rintro _ _ ⟨-, rfl⟩
                  refine (@ih fault _ (fun index => outcome (index + 1)) first script'
                  fun _ below => absurd below (Nat.not_lt_zero _)).weaken ?_
                  rintro ended after ⟨answer, attempts, rfl, answered, tries'⟩
                  refine ⟨answer, attempts + 1, rfl, answered.later ⟨fault, first, nobody⟩, ?_⟩
                  exact Nat.add_comm 1 attempts ▸ tries.trans tries'
                · rintro stop after ⟨⟨⟩, -⟩
            · next other =>
                exact .pure ⟨_, 1, rfl,
                  .failed (Nat.succ_pos _) noneYet first (by simpa using other), tries⟩
      · rintro stop middle ⟨⟨⟩, -⟩

omit lawful in
theorem carryOn_look {Output : Type} (task : TaskId)
    (act : Workbench → ValidationAct State Output) (next : Except (Stop ValidationFault) Output → _)
    (agenda : Tasks State) :
    Agenda.carryOn task ((part.look >>= act) next) agenda =
      Agenda.carryOn task (act (part.get agenda.state) next) agenda :=
  rfl

theorem step_brings {Output : Type} (update : Workbench → Workbench × Output) (before : State) :
    (part.step update : ValidationAct State Output).Brings before fun ended after =>
      ended = .ok (update (part.get before)).2 ∧ part.get after = (update (part.get before)).1 :=
  .step ⟨rfl, lawful _ before⟩

/-- A launch takes one step of the script of starts and has its outcome. -/
theorem exists_does_launch (jar : Path) (number : LaunchId) (before : State) (now : Moment) :
    ∃ after later, (launch part settings jar number).Does none before now (.ok ()) after later ∧
      part.surround after = { part.surround before with
        trace := (part.surround before).trace ++ [.started (startCommand settings jar) now]
        starts := (Surround.nextStep (part.surround before).starts).1
        launcher := (part.surround before).launcher.finish number
          (Surround.stepAt (part.surround before).starts 0).outcome } := by
  obtain ⟨starting, inner, starts⟩ := exists_does_step lawful (fun bench =>
    let bench := bench.record (.started (startCommand settings jar) now)
    ({ bench with surround := bench.surround.takeStart.1 }, bench.surround.takeStart.2)) before
  refine ⟨_, _, .bind .clock (.bind (starts none now)
    (.bind (.sleepSeconds (by simp)) (.change _))), ?_⟩
  rw [Part.surround, lawful, inner, ← (Surround.nextStep_eq _).1]
  rfl

omit lawful in
/-- Looks what became of a launch. -/
def collectLaunch (part : Part State Workbench) (number : LaunchId) :
    ValidationAct State (Except String Unit) :=
  part.step fun bench =>
    let (launcher, learned) := bench.surround.launcher.collect number
    (bench.withLauncher launcher, learned)

theorem collectLaunch_brings (number : LaunchId) (before : State) :
    (collectLaunch part number).Brings before fun ended after =>
      ended = .ok ((part.surround before).launcher.collect number).2 ∧
        part.surround after = { part.surround before with
          launcher := ((part.surround before).launcher.collect number).1 } := by
  refine (step_brings lawful _ before).weaken ?_
  rintro ended after ⟨rfl, inner⟩
  exact ⟨rfl, congrArg Workbench.surround inner⟩

omit lawful in
/-- Who needs a launch that is in flight waits for its task. -/
theorem carryOn_awaitLaunch {agenda : Tasks State} {number : LaunchId} {child : TaskId}
    (flying : (part.surround agenda.state).launcher.stateOf number = .inFlight)
    (known : (part.surround agenda.state).launchTasks[number]? = some child) (task : TaskId)
    (next : Except (Stop ValidationFault) (Except String Unit) → _) :
    ∃ carry, Agenda.carryOn task (awaitLaunch part number next) agenda =
        Agenda.carryOn task (.awaitAny [child] carry) agenda ∧
      carry .resumed = collectLaunch part number next := by
  have looks : Agenda.carryOn task (awaitLaunch part number next) agenda =
      Agenda.carryOn task ((do
        if (part.surround agenda.state).launcher.stateOf number = .inFlight then
          Act.awaitAny ((part.surround agenda.state).launchTasks[number]?).toList
        collectLaunch part number :
        ValidationAct State (Except String Unit)) next) agenda := rfl
  rw [looks, if_pos flying, known]
  exact ⟨_, rfl, rfl⟩

/-- A launch that has begun is waited for and learned of. -/
theorem begin_brings (jar : Path) {history : List LaunchMove} {number : LaunchId} {before : State}
    (legal : Launcher.Legal history) (learned : Launcher.Learned history)
    (begins : (Launcher.after history).request.2 = .begin number)
    (launcher : (part.surround before).launcher = Launcher.after (.request :: history))
    (launchTasks : (part.surround before).launchTasks.length = number) :
    (do
      let task ← Act.start (Act.run (launch part settings jar number))
      part.change fun bench =>
        { bench with surround :=
          { bench.surround with launchTasks := bench.surround.launchTasks ++ [task] } }
      awaitLaunch part number : ValidationAct State (Except String Unit)).Brings before
        fun ended after =>
          ended = .ok (Surround.stepAt (part.surround before).starts 0).outcome ∧
            (part.surround before).Passes 0 1 (part.surround after) ∧
            (part.surround after).Rests := by
  rintro task next agenda alone rfl
  let registered : State := part.set
    { part.get agenda.state with surround :=
      { part.surround agenda.state with
        launchTasks := (part.surround agenda.state).launchTasks ++ [agenda.tasks.size] } }
    agenda.state
  have inner : part.surround registered = { part.surround agenda.state with
      launchTasks := (part.surround agenda.state).launchTasks ++ [agenda.tasks.size] } :=
    congrArg Workbench.surround (lawful _ _)
  obtain ⟨launched, later, does, launchedInner⟩ :=
    exists_does_launch lawful settings jar number registered agenda.now
  have gets : (Act.run (launch part settings jar number)).alone none registered agenda.now =
      some (.ended none, launched, later) := does _
  have flying : (Launcher.after (.request :: history)).launches[number]? = some .inFlight :=
    Launcher.flying_of_begin begins
  have stateOf : (part.surround registered).launcher.stateOf number = .inFlight := by
    rw [inner, launcher, Launcher.stateOf, List.getD_eq_getElem?_getD]
    exact congrArg (Option.getD · _) flying
  have known : (part.surround registered).launchTasks[number]? = some agenda.tasks.size := by
    rw [inner, ← launchTasks]
    exact List.getElem?_concat_length
  let begun : Tasks State :=
    { agenda.start (Act.run (launch part settings jar number)) with state := registered }
  obtain ⟨carry, begins', resumed⟩ : ∃ carry, _ = Agenda.carryOn task _ begun ∧ _ :=
    @carryOn_awaitLaunch _ part begun number agenda.tasks.size stateOf known task next
  obtain ⟨middle, rfl, alone', beside, waits⟩ := alone.await carry gets
  let outcome := (Surround.stepAt (part.surround agenda.state).starts 0).outcome
  have finished : (part.surround middle.state).launcher =
      Launcher.after (.finish number outcome :: .request :: history) := by
    rw [launchedInner, inner, Launcher.after, ← launcher]
    rfl
  obtain ⟨ended, final, ⟨same, finalInner⟩, alone'', beside', ends⟩ :=
    collectLaunch_brings lawful number middle.state task next middle alone' rfl
  refine ⟨ended, final, ⟨?_, ?_, ?_⟩, alone'', beside.onward beside', ?_⟩
  · rw [same, finished]
    exact congrArg _ (Launcher.collect_of_ended (Launcher.stateOf_finish flying outcome))
  · rw [finalInner, launchedInner, inner]
    exact ⟨fun index => by rw [Nat.zero_add], [_], rfl, rfl, rfl⟩
  · refine .launched legal learned begins outcome ?_ ?_
    · rw [finalInner, finished]
      rfl
    · rw [finalInner, launchedInner, inner, List.length_append, launchTasks, List.length_singleton]
  · rw [resumed] at waits
    exact .trans (begins' ▸ waits) ends

/-- **The validator is launched unless it is started**, and then its launch is learned of. -/
theorem ensureStarted_brings (jar : Path) {before : State} (rests : (part.surround before).Rests) :
    (ensureStarted part settings jar).Brings before fun ended after =>
      (part.surround after).Rests ∧
        ((part.surround before).launcher.isStarted = true ∧ ended = .ok (.ok ()) ∧
            (part.surround before).Passes 0 0 (part.surround after) ∨
          (part.surround before).launcher.isStarted = false ∧
            ended = .ok (Surround.stepAt (part.surround before).starts 0).outcome ∧
            (part.surround before).Passes 0 1 (part.surround after)) := by
  have requests := step_brings lawful (fun bench =>
    (bench.withLauncher bench.surround.launcher.request.1, bench.surround.launcher.request.2))
    before
  refine .bind requests ?_ ?_
  · rintro step middle ⟨same, inner⟩
    have step' : step = (part.surround before).launcher.request.2 := Except.ok.inj same
    have inner' : part.surround middle = { part.surround before with
        launcher := (part.surround before).launcher.request.1 } := congrArg Workbench.surround inner
    have passes : (part.surround before).Passes 0 0 (part.surround middle) := by
      rw [inner']
      exact .idle rfl rfl
    obtain ⟨⟨history, legal, learned, launcher⟩, launchTasks⟩ := rests
    cases started : (part.surround before).launcher.isStarted with
    | true =>
        have ready : (part.surround before).launcher.request = (_, .ready) := if_pos started
        rw [ready] at step' inner'
        rw [step']
        refine .pure ⟨?_, .inl ⟨rfl, rfl, passes⟩⟩
        rw [inner']
        exact ⟨⟨history, legal, learned, launcher⟩, launchTasks⟩
    | false =>
        have begins : (part.surround before).launcher.request.2 =
            .begin (part.surround before).launcher.launches.length := by
          rw [launcher] at started ⊢
          exact legal.begins learned started
        have launcher' : (part.surround middle).launcher =
            Launcher.after (.request :: history) := by
          rw [inner', launcher]
          rfl
        have launchTasks' : (part.surround middle).launchTasks.length =
            (part.surround before).launcher.launches.length := by rw [inner', launchTasks]
        rw [step', begins]
        refine (begin_brings lawful settings jar legal learned (launcher ▸ begins) launcher'
          launchTasks').weaken ?_
        rintro ended after ⟨rfl, passes', rests⟩
        refine ⟨rests, .inr ⟨rfl, ?_, passes.trans passes'⟩⟩
        rw [inner']
  · rintro stop middle ⟨⟨⟩, -⟩

/-- Exchanges and a launch between them follow the protocol. -/
theorem retries_bring (jar : Path) (request : String) {before : State}
    (rests : (part.surround before).Rests) :
    (Retry.send (exchange part settings request) (ensureStarted part settings jar)
      (Act.sleepSeconds settings.retryDelaySeconds) settings.connectRetries.toNat).Brings before
        fun ended after => ∃ answer exchanges launches, ended = .ok answer ∧
          Follows settings answer exchanges launches (part.surround before)
            (part.surround after) := by
  let outcome (index : Nat) := (Surround.stepAt (part.surround before).connections index).outcome
    (Span.ofSeconds settings.timeoutSeconds)
  refine .bind (exchange_brings lawful settings request before) ?_ ?_
  · rintro value middle ⟨same, tries⟩
    have first := (Except.ok.inj same).symm
    have rests' := rests.congr tries.launcher tries.launchTasks
    cases value with
    | ok reply => exact .pure ⟨_, 1, 0, rfl, .replied first, tries.passes, rests'⟩
    | error fault =>
        dsimp only
        split
        · next nobody =>
            have nobody' : Retry.FindsNobody (outcome 0) := ⟨fault, first, nobody⟩
            refine .bind (ensureStarted_brings lawful settings jar rests') ?_ ?_
            · rintro started later ⟨rests'', came⟩
              have onward : ∀ {launches}, (part.surround middle).Passes 0 launches
                  (part.surround later) → _ := fun passes =>
                @attempts_bring _ _ lawful settings request settings.connectRetries.toNat fault
                  later
                  outcome first fun index => by
                    rw [passes.script, tries.passes.script, Nat.zero_add, Nat.add_comm]
              rw [tries.launcher, tries.starts] at came
              rcases came with ⟨isStarted, same', passes⟩ | ⟨unstarted, same', passes⟩
              · obtain rfl := Except.ok.inj same'
                refine (onward passes).weaken ?_
                rintro ended after ⟨answer, attempts, rfl, answered, tries'⟩
                refine ⟨answer, attempts + 1, 0, rfl, .started nobody' isStarted answered, ?_,
                  rests''.congr tries'.launcher tries'.launchTasks⟩
                exact Nat.add_comm 1 attempts ▸ (tries.passes.trans passes).trans tries'.passes
              · have launch := (Except.ok.inj same').symm
                cases started with
                | ok value =>
                    refine (onward passes).weaken ?_
                    rintro ended after ⟨answer, attempts, rfl, answered, tries'⟩
                    refine ⟨answer, attempts + 1, 1, rfl,
                      .launched nobody' unstarted launch answered, ?_,
                      rests''.congr tries'.launcher tries'.launchTasks⟩
                    exact Nat.add_comm 1 attempts ▸ (tries.passes.trans passes).trans tries'.passes
                | error reason =>
                    exact .pure ⟨_, 1, 1, rfl, .notStarted nobody' unstarted launch,
                      tries.passes.trans passes, rests''⟩
            · rintro stop later ⟨-, ⟨-, ⟨⟩, -⟩ | ⟨-, ⟨⟩, -⟩⟩
        · next other =>
            exact .pure ⟨_, 1, 0, rfl, .failed first (by simpa using other), tries.passes, rests'⟩
  · rintro stop middle ⟨⟨⟩, -⟩

/-- Sending a request brings an answer as the settings prescribe. -/
theorem send_brings (jar : Path) (request : String) {before : State}
    (rests : (part.surround before).Rests) :
    (send part settings jar request).Brings before fun ended after =>
      ∃ answer exchanges launches,
        ended = (answer.mapError fun fault => .fault (.failure (failureOf settings fault))) ∧
          Follows settings answer exchanges launches (part.surround before)
            (part.surround after) := by
  refine .bind (retries_bring lawful settings jar request rests) ?_ ?_
  · rintro value middle ⟨answer, exchanges, launches, same, follows⟩
    obtain rfl := Except.ok.inj same
    cases value with
    | ok output => exact .pure ⟨_, exchanges, launches, rfl, follows⟩
    | error fault => exact .fail ⟨_, exchanges, launches, rfl, follows⟩
  · rintro stop middle ⟨answer, exchanges, launches, same, -⟩
    cases same

/-- A check that nobody cancels follows the protocol. -/
theorem check_concludes [Host] (file : String) (token : Option TokenId) {before : State}
    (rests : (part.surround before).Rests) {jar : Path}
    (found : program settings (part.get before).workspace.files = .ok jar) :
    (check part settings file token).Concludes token before fun ended after =>
      ∃ answer exchanges launches,
        ended = (answer.mapError fun fault => .fault (.failure (failureOf settings fault))) ∧
          Follows settings answer exchanges launches (part.surround before)
            (part.surround after) := by
  have sends := (send_brings lawful settings jar (checkRequest file) rests).cancellable
    .cancelled token
  apply sends.congr
  rintro task next agenda begun
  rw [check, carryOn_look, begun, found]

/-- The tasks of a client that was asked for one check after another, none of which was
cancelled. -/
inductive Served [Host] (part : Part State Workbench) (settings : ValidatorSettings) :
    Tasks State → Prop
  | fresh {state : State} {connections : List ConnectionStep} {starts : List StartStep}
      (unused : part.surround state = .initial connections starts) :
      Served part settings (.initial state)
  | next {before after : Tasks State} (served : Served part settings before) {file : String}
      {token : Option TokenId} (grants : ∀ granted ∈ token, before.Grants granted) {jar : Path}
      (found : program settings (part.get before.state).workspace.files = .ok jar)
      (reaches : (before.start (Act.toProcess (check part settings file token))).Reaches after)
      (idle : after.Idle) : Served part settings after

/-- Nothing is left to do then, and the launches were learned of. -/
theorem Served.rests [Host] {tasks : Tasks State} (served : Served part settings tasks) :
    tasks.Idle ∧ (part.surround tasks.state).Rests := by
  induction served with
  | fresh unused => exact ⟨⟨rfl, rfl⟩, unused ▸ .initial _ _⟩
  | @next before after _ file token grants jar found reaches idle ih =>
      have concludes := check_concludes lawful settings file token ih.2 found
      obtain ⟨_, after', reaches', idle', -, _, _, _, -, follows⟩ := concludes.run ih.1 grants rfl
      obtain rfl := idle.unique idle' reaches reaches'
      exact ⟨idle, follows.rests⟩

end Requests

section

open scoped Trial

end

end ValidatorClient

end ModelAssist
