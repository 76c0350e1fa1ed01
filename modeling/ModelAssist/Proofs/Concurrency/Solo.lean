import ModelAssist.Proofs.Concurrency
import ModelAssist.Proofs.Concurrency.Attend
import ModelAssist.Proofs.Concurrency.Timing

/-!
# Acts of a task that is alone

What an act brings about while nothing else goes on than what it started itself, but for one task
that may be about to watch a token (`Act.Brings`).  Acts are followed one by one; work within a time
limit brings about what the work comes to by itself, or it is cut short (`Act.Brings.within`).
-/

namespace ModelAssist

variable {State Result Fault Output Other : Type}

/-- Holds of a task while nothing is due and nothing else is in the queue, but for a task that is
about to watch a token. -/
structure Agenda.Alone (task : TaskId) (agenda : Agenda State Result) : Prop where
  known : task < agenda.tasks.size
  alarms : agenda.alarms = []
  calm : ∃ bystander : Option TaskId, agenda.queue = bystander.toList.map .task ∧
    ∀ other ∈ bystander, other ≠ task ∧ agenda.Watches other

/-- Holds if an act of a task that is alone ends, however it does, with an output and a state that
meet a condition. -/
def Act.Brings (act : Act State Result Fault Output) (before : State)
    (meets : Except (Stop Fault) Output → State → Prop) : Prop :=
  ∀ (task : TaskId) (next : Except (Stop Fault) Output → Process State Result)
      (agenda : Agenda State Result), agenda.Alone task → agenda.state = before →
    ∃ ended after, meets ended after.state ∧ after.Alone task ∧
      Agenda.Beside task agenda.tasks.size agenda after ∧
      (Agenda.carryOn task (act next) agenda).Reaches (Agenda.carryOn task (next ended) after)

namespace Agenda

variable {task : TaskId} {before middle after : Agenda State Result}

/-- Nothing happens beside a task where nothing happens. -/
theorem Beside.refl (bound : Nat) (agenda : Agenda State Result) :
    Beside task bound agenda agenda :=
  fun _ _ entry found => ⟨entry, found, .kept entry⟩

/-- What happens beside a task and then beside all tasks that there are by then happens beside the
task. -/
theorem Beside.onward {bound : Nat} (first : Beside task bound before middle)
    (second : Beside task middle.tasks.size middle after) : Beside task bound before after := by
  intro other below entry found
  obtain ⟨entry', found', settles⟩ := first other below entry found
  obtain ⟨there, -⟩ := Array.getElem?_eq_some_iff.mp found'
  obtain ⟨entry'', found'', settles'⟩ := second other there entry' found'
  exact ⟨entry'', found'', settles.trans settles'⟩

/-- Settling happens beside every task but the bystander. -/
theorem Settled.beside {bystander : Option TaskId} {bound : Nat}
    (settled : Settled bystander before after) : Beside task bound before after := by
  intro other _ entry found
  by_cases member : other ∈ bystander
  · obtain ⟨entry', found', settles⟩ := settled.watcher other member entry found
    exact ⟨entry', found', settles _⟩
  · exact ⟨entry, (settled.others other member).trans found, .kept entry⟩

/-- A task still exists after what happens beside it. -/
theorem Beside.lt_size {bound : Nat} (beside : Beside task bound before after)
    (below : task < bound) (known : task < before.tasks.size) : task < after.tasks.size := by
  obtain ⟨entry, found, -⟩ := beside task below _ (Array.getElem?_eq_getElem known)
  exact (Array.getElem?_eq_some_iff.mp found).1

/-- A task is alone where no turn is in the queue and none is due later. -/
theorem Alone.of_queue (known : task < after.tasks.size) (alarms : after.alarms = [])
    (queue : after.queue = []) : after.Alone task :=
  ⟨known, alarms, none, queue, by rintro _ ⟨⟩⟩

/-- The others settle while a task waits. -/
theorem Reaches.settleFor {agenda waiting : Agenda State Result} {status : TaskStatus State Result}
    {bystander : Option TaskId} {rest : List Turn} (known : task < agenda.tasks.size)
    (tasks : waiting.tasks = (agenda.setStatus task status).tasks)
    (tokens : waiting.tokens = agenda.tokens)
    (queue : waiting.queue = bystander.toList.map .task ++ rest)
    (watches : ∀ other ∈ bystander, other ≠ task ∧ agenda.Watches other) :
    ∃ after watchers, waiting.Reaches after ∧ after.queue = rest ∧
      Settled bystander waiting after ∧ after.tasks[task]? = some ⟨status, watchers⟩ ∧
      ∀ bound, Beside task bound agenda after := by
  have watches' : ∀ other ∈ bystander, waiting.Watches other := by
    intro other member
    obtain ⟨different, first, next, watchers, token, waiters, found, begins, gives, gives',
      uncancelled⟩ := watches other member
    refine ⟨first, next, watchers, token, waiters, ?_, begins, gives, gives',
      tokens.symm ▸ uncancelled⟩
    rw [tasks, getElem?_setStatus_of_ne _ different, found]
  obtain ⟨watchers, own⟩ := exists_watchers known status
  obtain ⟨after, reaches, queueEq, settled⟩ := Reaches.settle queue watches'
  refine ⟨after, watchers, reaches, queueEq, settled, ?_, fun bound => ?_⟩
  · rw [settled.others task fun member => (watches task member).1 rfl, tasks, own]
  · have changed : Beside task bound agenda waiting := by
      intro other below entry found
      rw [tasks]
      exact Beside.setStatus status other below entry found
    exact changed.trans settled.beside

end Agenda

namespace Agenda

variable {task : TaskId} {agenda limited : Agenda State Result}

/-- Starting a task leaves the entries of others as they are. -/
theorem getElem?_start (agenda : Agenda State Result) (process : Process State Result)
    {other : TaskId} {entry : TaskEntry State Result} (found : agenda.tasks[other]? = some entry) :
    (agenda.start process).tasks[other]? = some entry := by
  obtain ⟨there, -⟩ := Array.getElem?_eq_some_iff.mp found
  exact (Array.getElem?_push_lt there).trans ((Array.getElem?_eq_getElem there).symm.trans found)

/-- A task that was started is in the queue with its process and without watchers. -/
theorem getElem?_start_self (agenda : Agenda State Result) (process : Process State Result) :
    ∃ first : Wake → Process State Result,
      (agenda.start process).tasks[agenda.tasks.size]? = some ⟨.queued first false, []⟩ ∧
        first .resumed = process ∧ first .interrupted = .finish none :=
  ⟨_, Array.getElem?_push_size, rfl, rfl⟩

/-- Starting a task happens beside the others. -/
theorem beside_start (process : Process State Result) (tasks : limited.tasks = agenda.tasks)
    (bound : Nat) : Beside task bound agenda (limited.start process) :=
  fun _ _ entry found => ⟨entry, getElem?_start limited process (tasks.symm ▸ found), .kept entry⟩

/-- A task that is alone may wait for one that it starts. -/
theorem Alone.expects (alone : agenda.Alone task) (tasks : limited.tasks = agenda.tasks)
    (tokens : limited.tokens = agenda.tokens) (queue : limited.queue = agenda.queue)
    (process : Process State Result) :
    Expects task agenda.tasks.size process (limited.start process) := by
  obtain ⟨known, -, bystander, queueEq, watches⟩ := alone
  refine ⟨?_, known, ⟨bystander, ?_, ?_⟩, ?_⟩
  · refine Nat.lt_of_lt_of_eq (Nat.lt_succ_of_lt known) ?_
    rw [← tasks]
    exact (Array.size_push _).symm
  · simp [start, queue, queueEq, tasks]
  · intro other member
    obtain ⟨different, first, next, watchers, token, waiters, found, begins, gives, gives',
      uncancelled⟩ := watches other member
    obtain ⟨there, -⟩ := Array.getElem?_eq_some_iff.mp found
    exact ⟨different, Nat.ne_of_lt there, first, next, watchers, token, waiters,
      getElem?_start limited process (tasks.symm ▸ found), begins, gives, gives',
      tokens.symm ▸ uncancelled⟩
  · obtain ⟨first, found, begins, -⟩ := getElem?_start_self limited process
    rw [tasks] at found
    exact ⟨first, false, [], found, List.forall_mem_nil _, begins⟩

/-- A task that is alone waits for one that it started, until this has done what it does by
itself. -/
theorem Alone.await {process : Process State Result} {result : Option Result} {state last : State}
    {moment : Moment} (alone : agenda.Alone task) (next : Wake → Process State Result)
    (gets : process.alone none state agenda.now = some (.ended result, last, moment)) :
    ∃ after, after.state = last ∧ after.Alone task ∧ Beside task agenda.tasks.size agenda after ∧
      (carryOn task (.awaitAny [agenda.tasks.size] next)
        { agenda.start process with state }).Reaches (carryOn task (next .resumed) after) := by
  let started : Agenda State Result := { agenda with state }
  have expects : Expects task agenda.tasks.size process (started.start process) :=
    @expects _ _ task agenda started alone rfl rfl rfl process
  have alarms : (started.start process).alarms = [] := alone.alarms
  have due : ∀ alarm ∈ (started.start process).alarms, ∃ moment ∈ none, moment ≤ alarm.due := by
    rw [alarms]
    exact List.forall_mem_nil _
  obtain ⟨after, reaches, queue, beside, -, same, alarmsEq, -⟩ := expects.finish next due gets
  have besideStart : Beside task agenda.tasks.size agenda (started.start process) :=
    @beside_start _ _ task agenda started process rfl _
  refine ⟨after, same, .of_queue ?_ (alarmsEq.trans alarms) queue, besideStart.trans beside,
    reaches⟩
  exact beside.lt_size expects.older expects.known

/-- Clearing a deadline tells whether it had passed. -/
theorem carryOn_clearDeadline {deadline : DeadlineId} {owner : TaskId} {isSet passed : Bool}
    (known : agenda.deadlines[deadline]? = some ⟨owner, isSet, passed⟩)
    (next : Bool → Process State Result) :
    carryOn task (.clearDeadline deadline next) agenda =
      carryOn task (next passed) { agenda.dropAlarms (.deadline deadline) with
        deadlines := agenda.deadlines.setIfInBounds deadline ⟨owner, false, passed⟩ } := by
  rw [carryOn, known]

/-- The agenda after a task has set a deadline. -/
def withDeadline (agenda : Agenda State Result) (task : TaskId) (span : Moment) :
    Agenda State Result :=
  { agenda.setAlarm span (.deadline agenda.deadlines.size) with
    deadlines := agenda.deadlines.push ⟨task, true, false⟩ }

/-- Holds if a task may wait for work that it has just started, with a deadline that it has just
set. -/
structure Limited (task work : TaskId) (deadline : DeadlineId) (due : Moment)
    (process : Process State Result) (agenda : Agenda State Result) : Prop where
  expects : Expects task work process agenda
  alarms : agenda.alarms = [⟨due, .deadline deadline⟩]
  isSet : agenda.deadlines[deadline]? = some ⟨task, true, false⟩

/-- A task that is alone sets a deadline and starts a child with it. -/
theorem Alone.limits (alone : agenda.Alone task) (span : Moment) (process : Process State Result) :
    Limited task agenda.tasks.size agenda.deadlines.size (agenda.now + span) process
        ((agenda.withDeadline task span).start process) ∧
      Beside task agenda.tasks.size agenda ((agenda.withDeadline task span).start process) := by
  refine ⟨⟨?_, ?_, Array.getElem?_push_size⟩, ?_⟩
  · exact @Alone.expects _ _ task agenda (agenda.withDeadline task span) alone rfl rfl rfl process
  · simp [withDeadline, start, setAlarm, alone.alarms]
  · exact @beside_start _ _ task agenda (agenda.withDeadline task span) process rfl _

namespace Limited

variable {work : TaskId} {deadline : DeadlineId} {due : Moment} {process : Process State Result}
  {carry : Wake → Process State Result} {state last : State} {moment ending : Moment}

/-- Work that ends in time is over when the deadline is cleared. -/
theorem finish {result : Option Result} {rest : Bool → Process State Result}
    (limited : Limited task work deadline due process agenda)
    (resumed : carry .resumed = .clearDeadline deadline rest)
    (gets :
      process.alone (some due) agenda.state agenda.now = some (.ended result, state, moment)) :
    ∃ after, (carryOn task (.awaitAny [work] carry) agenda).Reaches
        (carryOn task (rest false) after) ∧
      after.Alone task ∧ Beside task work agenda after ∧ after.state = state ∧
      ∃ watchers, after.tasks[work]? = some ⟨.ended result, watchers⟩ := by
  obtain ⟨expects, alarms, isSet⟩ := limited
  have bounded : ∀ alarm ∈ agenda.alarms, ∃ moment ∈ some due, moment ≤ alarm.due := by
    rw [alarms]
    intro alarm member
    rw [List.mem_singleton.mp member]
    exact ⟨_, rfl, Nat.le_refl _⟩
  obtain ⟨after, reaches, queue, beside, ended, same, alarmsEq, deadlinesEq⟩ :=
    expects.finish carry bounded gets
  let cleared : Agenda State Result := { after.dropAlarms (.deadline deadline) with
    deadlines := after.deadlines.setIfInBounds deadline ⟨task, false, false⟩ }
  have quiet : cleared.alarms = [] := by
    simp [cleared, dropAlarms, alarmsEq, alarms]
  rw [resumed, carryOn_clearDeadline (deadlinesEq.symm ▸ isSet)] at reaches
  have known : task < cleared.tasks.size := beside.lt_size expects.older expects.known
  exact ⟨cleared, reaches, .of_queue known quiet queue, beside, same, ended⟩

/-- Work that sleeps beyond the deadline is interrupted, and its end is waited for. -/
theorem stop {span : Moment} {left stopped : Wake → Process State Result}
    {tell : Bool → Process State Result} {result : Option Result}
    (limited : Limited task work deadline due process agenda)
    (interrupted : carry .interrupted = .clearDeadline deadline tell)
    (tells : tell true = .interrupt work (.awaitAny [work] stopped))
    (gets : process.alone (some due) agenda.state agenda.now =
      some (.overdue span left, state, moment))
    (gets' : (left .interrupted).alone none state due = some (.ended result, last, ending)) :
    ∃ after, (carryOn task (.awaitAny [work] carry) agenda).Reaches
        (carryOn task (stopped .resumed) after) ∧
      after.Alone task ∧ Beside task work agenda after ∧ after.state = last := by
  obtain ⟨expects, alarms, isSet⟩ := limited
  obtain ⟨after, stale, reaches, held, bounded, beside, rfl, nowEq, deadlinesEq⟩ :=
    expects.expire carry alarms isSet gets
  have passed : after.deadlines[deadline]? = some ⟨task, false, true⟩ := by
    rw [deadlinesEq, Array.getElem?_setIfInBounds_self_of_lt]
    exact (Array.getElem?_eq_some_iff.mp isSet).1
  let cleared : Agenda State Result := { after.dropAlarms (.deadline deadline) with
    deadlines := after.deadlines.setIfInBounds deadline ⟨task, false, true⟩ }
  have known : task < cleared.tasks.size := beside.lt_size expects.older expects.known
  have held' : Held work left (stale.map (task, ·)) cleared := held.dropDeadline _ _
  let told := cleared.interrupt work
  have told_eq : told = { cleared.setStatus work (.queued left true) with
      queue := [.task work], alarms := [] } := held'.interrupt
  have expectsEnd : Expects task work (left .interrupted) told :=
    held'.expects known expects.older bounded
  have besideTold : Beside task work after told := by
    rw [told_eq]
    exact Beside.setStatus_child cleared _
  have quiet : told.alarms = [] := by rw [told_eq]
  have never : ∀ alarm ∈ told.alarms, ∃ moment ∈ none, moment ≤ alarm.due := by
    rw [quiet]
    exact List.forall_mem_nil _
  have getsTold : (left .interrupted).alone none told.state told.now =
      some (.ended result, last, ending) := by
    rw [told_eq, ← gets', ← nowEq]
    rfl
  obtain ⟨final, ends, queue, besideEnd, -, same, alarmsEq, -⟩ :=
    expectsEnd.finish stopped never getsTold
  rw [interrupted, carryOn_clearDeadline passed, tells, carryOn] at reaches
  refine ⟨final, reaches.trans ends, .of_queue ?_ (alarmsEq.trans quiet) queue, ?_, same⟩
  · exact besideEnd.lt_size expects.older expectsEnd.known
  · exact beside.trans (besideTold.trans besideEnd)

end Limited

end Agenda

namespace Act.Brings

open Agenda

variable {act : Act State Result Fault Output} {before : State}
  {meets : Except (Stop Fault) Output → State → Prop}

/-- What an act brings may be told less exactly. -/
theorem weaken (brings : act.Brings before meets)
    {meets' : Except (Stop Fault) Output → State → Prop}
    (follows : ∀ ended state, meets ended state → meets' ended state) :
    act.Brings before meets' := by
  intro task next agenda alone begun
  obtain ⟨ended, after, met, rest⟩ := brings task next agenda alone begun
  exact ⟨ended, after, follows ended after.state met, rest⟩

/-- An act that ends in its own turn and at most changes the state. -/
theorem immediate (ended : Except (Stop Fault) Output) (state : State) (met : meets ended state)
    (carries : ∀ (task : TaskId) next (agenda : Agenda State Result), agenda.state = before →
      carryOn task (act next) agenda = carryOn task (next ended) { agenda with state }) :
    act.Brings before meets := by
  intro task next agenda alone begun
  refine ⟨ended, { agenda with state }, met, ⟨alone.known, alone.alarms, alone.calm⟩,
    .refl _ agenda, ?_⟩
  rw [carries task next agenda begun]
  exact .refl _

theorem pure {value : Output} (met : meets (.ok value) before) :
    (Pure.pure value : Act State Result Fault Output).Brings before meets := by
  apply immediate _ _ met
  rintro task next agenda rfl
  rfl

theorem throw {stop : Stop Fault} (met : meets (.error stop) before) :
    (throw stop : Act State Result Fault Output).Brings before meets := by
  apply immediate _ _ met
  rintro task next agenda rfl
  rfl

theorem fail {fault : Fault} (met : meets (.error (.fault fault)) before) :
    (Act.fail fault : Act State Result Fault Output).Brings before meets :=
  throw met

theorem step {update : State → State × Output}
    (met : meets (.ok (update before).2) (update before).1) :
    (Act.step update : Act State Result Fault Output).Brings before meets := by
  apply immediate _ _ met
  rintro task next agenda rfl
  rfl

/-- What two acts bring one after another, where the second one is left out if the first one stops.
-/
theorem bind {rest : Output → Act State Result Fault Other}
    {meets' : Except (Stop Fault) Other → State → Prop} (first : act.Brings before meets)
    (second : ∀ value middle, meets (.ok value) middle → (rest value).Brings middle meets')
    (stopped : ∀ stop middle, meets (.error stop) middle → meets' (.error stop) middle) :
    (act >>= rest).Brings before meets' := by
  intro task next agenda alone begun
  -- What is done after the first act carries its stop through to what follows.
  obtain ⟨carry, bound, resumed, halted⟩ := Act.exists_carry act rest next
  obtain ⟨ended, middle, met, alone', beside, reaches⟩ := first task carry agenda alone begun
  rw [bound]
  cases ended with
  | ok value =>
      obtain ⟨ended', after, met', alone'', beside', reaches'⟩ :=
        second value middle.state met task next middle alone' rfl
      rw [resumed] at reaches
      exact ⟨ended', after, met', alone'', beside.onward beside', reaches.trans reaches'⟩
  | error stop =>
      rw [halted] at reaches
      exact ⟨.error stop, middle, stopped stop middle.state met, alone', beside, reaches⟩

/-- What an act brings is told as a value when the act is attempted. -/
theorem attempt (brings : act.Brings before meets) :
    (Act.attempt act).Brings before fun ended state =>
      ∃ inner, ended = .ok inner ∧ meets inner state := by
  intro task next agenda alone begun
  obtain ⟨ended, after, met, rest⟩ := brings task (fun ended => next (.ok ended)) agenda alone begun
  exact ⟨.ok ended, after, ⟨ended, rfl, met⟩, rest⟩

theorem pause {meets : Except (Stop Fault) Unit → State → Prop} (met : meets (.ok ()) before) :
    (Act.pause : Act State Result Fault Unit).Brings before meets := by
  rintro task next agenda ⟨known, alarms, bystander, queue, watches⟩ rfl
  let paused : Agenda State Result :=
    (agenda.setStatus task (.queued (afterWake next) false)).enqueue (.task task)
  have queueEq : paused.queue = bystander.toList.map .task ++ [.task task] := by
    simp [paused, enqueue, Agenda.setStatus, queue]
  obtain ⟨after, watchers, reaches, queueAfter, settled, own, beside⟩ :=
    @Reaches.settleFor _ _ _ _ paused _ _ _ known rfl rfl queueEq watches
  have known' : task < after.tasks.size := (Array.getElem?_eq_some_iff.mp own).1
  refine ⟨.ok (), { after with queue := [] }, ?_, .of_queue known' ?_ rfl, beside _,
    reaches.trans (Reaches.resume queueAfter own)⟩
  · exact settled.state.symm ▸ met
  · exact settled.alarms.trans alarms

theorem sleep {span : Moment} {meets : Except (Stop Fault) Unit → State → Prop}
    (met : meets (.ok ()) before) :
    (Act.sleep span : Act State Result Fault Unit).Brings before meets := by
  rintro task next agenda ⟨known, alarms, bystander, queue, watches⟩ rfl
  let asleep : Agenda State Result :=
    (agenda.enterWait task (afterWake next)).setAlarm span (.wake task agenda.nextWait)
  have queueEq : asleep.queue = bystander.toList.map .task ++ [] := by
    simp [asleep, enterWait, setAlarm, Agenda.setStatus, queue]
  have alarmsEq : asleep.alarms = [] ++ [⟨agenda.now + span, .wake task agenda.nextWait⟩] := by
    simp [asleep, enterWait, setAlarm, Agenda.setStatus, alarms]
  obtain ⟨after, watchers, reaches, queueAfter, settled, own, beside⟩ :=
    @Reaches.settleFor _ _ _ _ asleep _ _ _ known rfl rfl queueEq watches
  have wakes :=
    Reaches.elapse queueAfter (settled.alarms.trans alarmsEq) (List.forall_mem_nil _) own
  refine ⟨.ok (), _, ?_, .of_queue ?_ rfl rfl, ?_, reaches.trans wakes⟩
  · exact settled.state.symm ▸ met
  · rw [size_setStatus]
    exact (Array.getElem?_eq_some_iff.mp own).1
  · exact (beside _).trans (.setStatus _)

/-- Sleeping brings nothing but the end of the sleep. -/
theorem sleepSeconds {seconds : Float} {meets : Except (Stop Fault) Unit → State → Prop}
    (met : meets (.ok ()) before) :
    (Act.sleepSeconds seconds : Act State Result Fault Unit).Brings before meets := by
  unfold Act.sleepSeconds
  split
  · exact sleep met
  · exact pause met

end Act.Brings

namespace Act.Brings

open Agenda

variable {act : Act State (Except Fault Output) Fault Output} {before : State}
  {meets : Except (Stop Fault) Output → State → Prop}

/-- The result of work that has ended is how the work ended. -/
theorem carryOn_resultOf {agenda : Agenda State (Except Fault Output)} {task work : TaskId}
    {result : Option (Except Fault Output)} {watchers : List (TaskId × Nat)}
    (ended : agenda.tasks[work]? = some ⟨.ended result, watchers⟩)
    (next : Except (Stop Fault) Output → Process State (Except Fault Output)) :
    carryOn task (Act.resultOf work next) agenda = carryOn task (next (endOf result)) agenda := by
  obtain ⟨tell, asks, told⟩ : ∃ tell, Act.resultOf work next = .ended work tell ∧
      ∀ result, tell (some result) = next (endOf result) := by
    refine ⟨_, rfl, ?_⟩
    rintro (_ | _ | _) <;> rfl
  rw [asks, carryOn, statusOf_eq ended]
  exact congrArg (carryOn task · agenda) (told result)

/-- **Work within a time brings about what it comes to by itself.** -/
theorem within {span : Moment} {onTimeout : Fault}
    (comes : ∀ now, (toProcess act).ComesTo span onTimeout before now meets) :
    (Act.within span onTimeout act).Brings before meets := by
  rintro task next agenda alone rfl
  let started := (agenda.withDeadline task span).start (toProcess act)
  obtain ⟨carry, tell, stopped, begins, resumed, interrupted, tells, stops⟩ :
      ∃ (carry : Wake → Process State (Except Fault Output)) (tell : Bool → _)
        (stopped : Wake → _),
      carryOn task (Act.within span onTimeout act next) agenda =
        carryOn task (.awaitAny [agenda.tasks.size] carry) started ∧
      carry .resumed =
        .clearDeadline agenda.deadlines.size (fun _ => Act.resultOf agenda.tasks.size next) ∧
      carry .interrupted = .clearDeadline agenda.deadlines.size tell ∧
      tell true = .interrupt agenda.tasks.size (.awaitAny [agenda.tasks.size] stopped) ∧
      stopped .resumed = next (.error (.fault onTimeout)) :=
    ⟨_, _, _, rfl, rfl, rfl, rfl, rfl⟩
  obtain ⟨limited, beside⟩ := alone.limits span (toProcess act)
  rw [begins]
  obtain ⟨pursuit, state, moment, gets, comes⟩ := comes agenda.now
  cases pursuit with
  | ended result =>
      obtain ⟨after, reaches, alone', beside', same, watchers, ended⟩ :=
        limited.finish resumed gets
      rw [carryOn_resultOf ended] at reaches
      exact ⟨endOf result, after, same ▸ comes, alone', beside.trans beside', reaches⟩
  | overdue rest left =>
      obtain ⟨result, last, ending, gets', met⟩ := comes
      obtain ⟨after, reaches, alone', beside', same⟩ := limited.stop interrupted tells gets gets'
      rw [stops] at reaches
      exact ⟨.error (.fault onTimeout), after, same ▸ met, alone', beside.trans beside', reaches⟩

end Act.Brings

end ModelAssist
