import ModelAssist.Proofs.Concurrency.Solo
import ModelAssist.Proofs.Validator.Client

/-!
# Exchanges with the validator

What one exchange comes to is read off what happens to its connection (`ConnectionStep.outcome`): it
fails for the first thing that goes wrong, or at the end of its time, and otherwise it yields what
was answered, whatever goes wrong when the connection is closed.  Each exchange takes one step of
the script of connections (`ValidatorClient.exchange_brings`).
-/

namespace ModelAssist

namespace ConnectionStep

/-- What is read from a connection. -/
def answer (step : ConnectionStep) : Except NetworkFault ValidatorOutput :=
  match step.readFault with
  | some fault => .error fault
  | none => .ok (ValidatorOutput.split (String.ofList (Text.decodeMarking step.reply)))

/-- What an exchange comes to within a time, by what happens to its connection. -/
def outcome (limit : Moment) (step : ConnectionStep) : Except NetworkFault ValidatorOutput :=
  let connected := Span.ofSeconds step.connectSeconds
  let replied := connected + Span.ofSeconds step.replySeconds
  if 0 < step.connectSeconds ∧ limit ≤ connected then .error .deadline
  else
    match step.connectFault, step.writeFault with
    | some fault, _ | none, some fault => .error fault
    | none, none =>
      if 0 < step.replySeconds ∧ limit ≤ replied then .error .deadline else step.answer

end ConnectionStep

namespace NetworkEvent

/-- Holds of the attempts to connect. -/
def isConnect : NetworkEvent → Bool
  | .connect .. => true
  | _ => false

/-- Holds of the starts of programs. -/
def isStart : NetworkEvent → Bool
  | .started .. => true
  | _ => false

end NetworkEvent

namespace Surround

/-- What a script says for one step after another, of which the last one repeats. -/
def stepAt {Step : Type} [Inhabited Step] (steps : List Step) (index : Nat) : Step :=
  steps.getD (min index (steps.length - 1)) default

theorem nextStep_eq {Step : Type} [Inhabited Step] (steps : List Step) :
    (nextStep steps).2 = stepAt steps 0 ∧
      ∀ index, stepAt (nextStep steps).1 index = stepAt steps (index + 1) := by
  rcases steps with _ | ⟨step, _ | ⟨second, rest⟩⟩
  · exact ⟨rfl, fun _ => by simp [nextStep, stepAt]⟩
  · exact ⟨rfl, fun _ => by simp [nextStep, stepAt]⟩
  · refine ⟨rfl, fun index => ?_⟩
    have shifted : min (index + 1) (rest.length + 1) = min index rest.length + 1 := by omega
    simp [nextStep, stepAt, shifted]

/-- Holds if some exchanges and launches of a client led from its surroundings to others: the script
goes on behind the connections, and the trace tells of nothing else. -/
structure Passes (exchanges launches : Nat) (before after : Surround) : Prop where
  script : ∀ index,
    stepAt after.connections index = stepAt before.connections (exchanges + index)
  trace : ∃ events, after.trace = before.trace ++ events ∧
    events.countP (·.isConnect) = exchanges ∧ events.countP (·.isStart) = launches

namespace Passes

/-- What is known of the start of the validator is no matter of exchanges. -/
theorem idle {before after : Surround} (connections : after.connections = before.connections)
    (trace : after.trace = before.trace) : Passes 0 0 before after :=
  ⟨fun _ => by rw [connections, Nat.zero_add], [], by simp [trace], rfl, rfl⟩

/-- Passes of the exchange follow each other. -/
theorem trans {first second launches launches' : Nat} {before middle after : Surround}
    (left : Passes first launches before middle) (right : Passes second launches' middle after) :
    Passes (first + second) (launches + launches') before after := by
  obtain ⟨events, traceEq, connects, starts⟩ := left.trace
  obtain ⟨events', traceEq', connects', starts'⟩ := right.trace
  refine ⟨fun index => ?_, events ++ events', ?_, ?_, ?_⟩
  · rw [right.script, left.script, Nat.add_assoc]
  · rw [traceEq', traceEq, List.append_assoc]
  · rw [List.countP_append, connects, connects']
  · rw [List.countP_append, starts, starts']

end Passes

/-- Holds if some exchanges and nothing else led from the surroundings of a client to others. -/
structure Tries (count : Nat) (before after : Surround) : Prop where
  passes : Passes count 0 before after
  starts : after.starts = before.starts
  launcher : after.launcher = before.launcher
  launchTasks : after.launchTasks = before.launchTasks

namespace Tries

theorem refl (surround : Surround) : Tries 0 surround surround :=
  ⟨.idle rfl rfl, rfl, rfl, rfl⟩

/-- Attempts to connect follow each other. -/
theorem trans {first second : Nat} {before middle after : Surround}
    (left : Tries first before middle) (right : Tries second middle after) :
    Tries (first + second) before after :=
  ⟨left.passes.trans right.passes, right.starts.trans left.starts,
    right.launcher.trans left.launcher, right.launchTasks.trans left.launchTasks⟩

theorem record (surround : Surround) {event : NetworkEvent} (connects : event.isConnect = false)
    (starts : event.isStart = false) : Tries 0 surround (surround.record event) := by
  refine ⟨⟨fun index => by rw [Nat.zero_add]; rfl, [event], rfl, ?_, ?_⟩, rfl, rfl, rfl⟩
  · simp [connects]
  · simp [starts]

/-- Taking a connection is one attempt. -/
theorem connect (surround : Surround) (address : String) (moment : Moment) (files : FileStore) :
    Tries 1 surround (surround.record (.connect address moment files)).takeConnection.1 := by
  refine ⟨⟨fun index => ?_, [_], rfl, rfl, rfl⟩, rfl, rfl, rfl⟩
  rw [Nat.add_comm]
  exact (nextStep_eq surround.connections).2 index

end Tries

end Surround

variable {State : Type}

/-- The surroundings on a workbench. -/
def Part.surround (part : Part State Workbench) (state : State) : Surround :=
  (part.get state).surround

/-- The state with one more event in the trace. -/
def Part.recorded (part : Part State Workbench) (event : NetworkEvent) (state : State) : State :=
  part.set ((part.get state).record event) state

/-- How an act ends that talks to the validator. -/
def answerOf : Except NetworkFault ValidatorOutput → Except (Stop ValidationFault) ValidatorOutput
  | .ok output => .ok output
  | .error fault => .error (.fault (.exchange fault))

namespace ValidatorClient

variable {part : Part State Workbench} (lawful : part.Lawful) (settings : ValidatorSettings)

section Acts

variable {limit : Option Moment} {before : State} {now deadline : Moment}

include lawful in
theorem surround_recorded (event : NetworkEvent) (state : State) :
    part.surround (part.recorded event state) = (part.surround state).record event := by
  rw [Part.surround, Part.recorded, lawful]
  rfl

include lawful in
theorem tries_recorded (event : NetworkEvent) (inner : event.isConnect = false ∧
    event.isStart = false) (state : State) :
    (part.surround state).Tries 0 (part.surround (part.recorded event state)) := by
  rw [surround_recorded lawful]
  exact .record _ inner.1 inner.2

theorem does_record (event : NetworkEvent) :
    (part.change (·.record event) : ValidationAct State Unit).Does limit before now (.ok ())
      (part.recorded event before) now :=
  .change _

include lawful in
theorem exists_does_step {Output : Type} (update : Workbench → Workbench × Output)
    (before : State) :
    ∃ after, part.get after = (update (part.get before)).1 ∧ ∀ limit now,
      (part.step update : ValidationAct State Output).Does limit before now
        (.ok (update (part.get before)).2) after now :=
  ⟨_, lawful _ before, fun _ _ => .step _⟩

theorem does_hangUp (step : ConnectionStep) :
    (hangUp part step).Does limit before now (.ok ()) (part.recorded .closed before) now := by
  refine .bind (does_record .closed) ?_
  cases fault : step.closeFault with
  | some fault => exact .bind (.attempt (.throw _)) (.pure ())
  | none => exact .bind (.attempt (.pure ())) (.pure ())

/-- The state after a request was sent. -/
def afterSending (part : Part State Workbench) (step : ConnectionStep) (request : String)
    (state : State) : State :=
  if step.showsEnd then part.recorded .ended (part.recorded (.sent request) state)
  else part.recorded (.sent request) state

include lawful in
theorem tries_afterSending (step : ConnectionStep) (request : String) (state : State) :
    (part.surround state).Tries 0 (part.surround (afterSending part step request state)) := by
  have sent := tries_recorded lawful (.sent request) ⟨rfl, rfl⟩ state
  unfold afterSending
  split
  · exact sent.trans (tries_recorded lawful .ended ⟨rfl, rfl⟩ _)
  · exact sent

theorem does_refuse_none : (refuse none : ValidationAct State Unit).Does limit before now (.ok ())
    before now :=
  .pure ()

theorem does_refuse_some (fault : NetworkFault) :
    (refuse (some fault) : ValidationAct State Unit).Does limit before now
      (.error (.fault (.exchange fault))) before now :=
  .throw _

/-- The first half of a request. -/
def sendRequest (part : Part State Workbench) (step : ConnectionStep) (request : String) :
    ValidationAct State Unit := do
  part.change (·.record (.sent request))
  refuse step.writeFault
  if step.showsEnd then part.change (·.record .ended)

/-- The second half of a request. -/
def awaitReply (step : ConnectionStep) : ValidationAct State ValidatorOutput := do
  Act.sleepSeconds step.replySeconds
  refuse step.readFault
  return ValidatorOutput.split (String.ofList (Text.decodeMarking step.reply))

theorem converse_eq (step : ConnectionStep) (request : String) :
    converse part step request = sendRequest part step request >>= fun _ => awaitReply step := by
  unfold converse sendRequest
  cases shows : step.showsEnd with
  | true => rfl
  | false => rfl

/-- A request that cannot be written ends with the fault of the connection. -/
theorem does_sendRequest_of_fault {step : ConnectionStep} {fault : NetworkFault}
    (cannotWrite : step.writeFault = some fault) (request : String) :
    (sendRequest part step request).Does limit before now (.error (.fault (.exchange fault)))
      (part.recorded (.sent request) before) now := by
  unfold sendRequest
  rw [cannotWrite]
  exact .bind (does_record _) (.stop (does_refuse_some fault))

/-- A request that can be written is sent. -/
theorem does_sendRequest {step : ConnectionStep} (canWrite : step.writeFault = none)
    (request : String) :
    (sendRequest part step request).Does limit before now (.ok ())
      (afterSending part step request before) now := by
  unfold sendRequest afterSending
  rw [canWrite]
  refine .bind (does_record _) (.bind does_refuse_none ?_)
  split
  · exact does_record _
  · exact .pure ()

/-- A reply that comes before the deadline is awaited. -/
theorem does_awaitReply {step : ConnectionStep} (early : 0 < step.replySeconds →
    ∀ due ∈ limit, now + Span.ofSeconds step.replySeconds < due) :
    (awaitReply step).Does limit before now (answerOf step.answer) before
      (now + Span.ofSeconds step.replySeconds) := by
  unfold awaitReply ConnectionStep.answer
  refine .bind (.sleepSeconds early) ?_
  cases step.readFault with
  | some fault => exact .stop (does_refuse_some fault)
  | none => exact .bind does_refuse_none (.pure _)

/-- What is done with a connection that was tried. -/
def converseAndClose (part : Part State Workbench) (step : ConnectionStep) (request : String) :
    ValidationAct State ValidatorOutput := do
  Act.sleepSeconds step.connectSeconds
  refuse step.connectFault
  Act.ensure (converse part step request) (hangUp part step)

include lawful in
/-- A connection that was tried has its outcome, or its time is over first. -/
theorem converseAndClose_comes (step : ConnectionStep) (request : String) (span : Moment)
    (before : State) (now : Moment) :
    ∃ after, (part.surround before).Tries 0 (part.surround after) ∧
      ((∃ later, (converseAndClose part step request).Does (some (now + span)) before now
          (answerOf (step.outcome span)) after later) ∨
        step.outcome span = .error .deadline ∧
          (converseAndClose part step request).Expires (now + span) before now after) := by
  have closed := tries_recorded lawful .closed ⟨rfl, rfl⟩
  unfold converseAndClose ConnectionStep.outcome
  by_cases slow : 0 < step.connectSeconds ∧ span ≤ Span.ofSeconds step.connectSeconds
  · refine ⟨before, .refl _, .inr ⟨if_pos slow, .stop ?_⟩⟩
    exact .sleepSeconds slow.1 (Nat.add_le_add_left slow.2 now)
  have connects : (Act.sleepSeconds step.connectSeconds : ValidationAct State Unit).Does
      (some (now + span)) before now (.ok ()) before
      (now + Span.ofSeconds step.connectSeconds) := by
    refine .sleepSeconds ?_
    rintro sleeps due ⟨⟩
    exact Nat.add_lt_add_left (Nat.lt_of_not_le fun late => slow ⟨sleeps, late⟩) now
  dsimp only
  rw [if_neg slow, converse_eq]
  cases step.connectFault with
  | some fault =>
      exact ⟨before, .refl _, .inl ⟨_, .bind connects (.stop (does_refuse_some fault))⟩⟩
  | none =>
      cases writeFault : step.writeFault with
      | some fault =>
          have sent := tries_recorded lawful (.sent request) ⟨rfl, rfl⟩ before
          refine ⟨_, sent.trans (closed _), .inl ⟨now + Span.ofSeconds step.connectSeconds, ?_⟩⟩
          refine .bind connects (.bind does_refuse_none ?_)
          exact .ensure (.stop (does_sendRequest_of_fault writeFault request)) (does_hangUp step)
      | none =>
          have sent := tries_afterSending lawful step request before
          refine ⟨_, sent.trans (closed _), ?_⟩
          dsimp only
          by_cases late : 0 < step.replySeconds ∧
              span ≤ Span.ofSeconds step.connectSeconds + Span.ofSeconds step.replySeconds
          · refine .inr ⟨if_pos late, .bind connects (.bind does_refuse_none ?_)⟩
            refine .ensure (.bind (does_sendRequest writeFault request) (.stop ?_))
              fun _ => does_hangUp step
            apply Act.Expires.sleepSeconds late.1
            rw [Nat.add_assoc]
            exact Nat.add_le_add_left late.2 now
          · rw [if_neg late]
            refine .inl
              ⟨now + Span.ofSeconds step.connectSeconds + Span.ofSeconds step.replySeconds,
              .bind connects (.bind does_refuse_none ?_)⟩
            refine .ensure (.bind (does_sendRequest writeFault request) (does_awaitReply ?_))
              (does_hangUp step)
            rintro sleeps due ⟨⟩
            rw [Nat.add_assoc]
            exact Nat.add_lt_add_left (Nat.lt_of_not_le fun late' => late ⟨sleeps, late'⟩) now

include lawful in
/-- A round trip ends with the outcome of its connection after one attempt. -/
theorem roundTrip_comes (request : String) (span : Moment) (before : State) (now : Moment) :
    (Act.toProcess (roundTrip part settings request)).ComesTo span (.exchange .deadline) before now
      fun ended after =>
        ended = answerOf ((Surround.stepAt (part.surround before).connections 0).outcome span) ∧
          (part.surround before).Tries 1 (part.surround after) := by
  obtain ⟨opened, inner, opens⟩ := exists_does_step lawful (fun bench =>
    let bench := bench.record (.connect (address settings) now bench.workspace.files)
    ({ bench with surround := bench.surround.takeConnection.1 },
      bench.surround.takeConnection.2)) before
  have tries : (part.surround before).Tries 1 (part.surround opened) := by
    rw [Part.surround, Part.surround, inner]
    exact .connect _ _ _ _
  rw [← (Surround.nextStep_eq (part.surround before).connections).1]
  obtain ⟨after, triesNone, comes⟩ := converseAndClose_comes lawful
    (Surround.nextStep (part.surround before).connections).2 request span opened now
  rcases comes with ⟨later, does⟩ | ⟨late, expires⟩
  · exact .of_does (.bind .clock (.bind (opens _ _) does)) ⟨rfl, tries.trans triesNone⟩
  · refine .of_expires (.bind .clock (.bind (opens _ _) expires)) ⟨?_, tries.trans triesNone⟩
    rw [late]
    rfl

include lawful in
/-- **An exchange takes one step of the script of connections and has its outcome.** -/
theorem exchange_brings (request : String) (before : State) :
    (exchange part settings request).Brings before fun ended after =>
      ended = .ok ((Surround.stepAt (part.surround before).connections 0).outcome
        (Span.ofSeconds settings.timeoutSeconds)) ∧
      (part.surround before).Tries 1 (part.surround after) := by
  have comes := Act.Brings.attempt (Act.Brings.within
    (roundTrip_comes lawful settings request (Span.ofSeconds settings.timeoutSeconds) before))
  refine .bind comes ?_ ?_
  · rintro value middle ⟨inner, same, rfl, tries⟩
    obtain rfl := Except.ok.inj same
    cases (Surround.stepAt (part.surround before).connections 0).outcome
        (Span.ofSeconds settings.timeoutSeconds) with
    | ok output => exact .pure ⟨rfl, tries⟩
    | error fault => exact .pure ⟨rfl, tries⟩
  · rintro stop middle ⟨inner, same, -⟩
    cases same

end Acts

end ValidatorClient

end ModelAssist
