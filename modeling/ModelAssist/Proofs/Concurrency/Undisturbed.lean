import ModelAssist.Proofs.Concurrency.Solo

/-!
# Work that is not disturbed

What a task comes to that is started while nothing else is left to do, and whose token nobody
cancels: it ends with what its act brings about, and then again nothing is left to do
(`Act.Concludes.run`).
-/

namespace ModelAssist

variable {State Result Fault Output : Type}

namespace Agenda

/-- Holds of an agenda in which nothing is left to do. -/
structure Idle (agenda : Agenda State Result) : Prop where
  queue : agenda.queue = []
  alarms : agenda.alarms = []

/-- Where nothing is left to do, more turns change nothing. -/
theorem Idle.runWithin {agenda : Agenda State Result} (idle : agenda.Idle) (turns : Nat) :
    agenda.runWithin none turns = agenda := by
  cases turns with
  | zero => rfl
  | succ turns => simp [Agenda.runWithin, nextDue?, idle.queue, idle.alarms]

/-- What an agenda comes to when nothing is left to do is determined. -/
theorem Idle.unique {agenda first second : Agenda State Result} (idle : first.Idle)
    (idle' : second.Idle) (reaches : agenda.Reaches first) (reaches' : agenda.Reaches second) :
    first = second := by
  obtain ⟨turns, rfl⟩ := reaches
  obtain ⟨turns', rfl⟩ := reaches'
  rw [← idle.runWithin turns', ← idle'.runWithin turns, ← runWithin_add, ← runWithin_add,
    Nat.add_comm]

/-- Holds if nothing but the end of a task is left to do, or if one other task is in the queue
beside it, which is about to watch a token or to end. -/
inductive Remains (task : TaskId) (agenda : Agenda State Result) : Prop
  | nothing (queue : agenda.queue = [])
  | watcher {other : TaskId} (queue : agenda.queue = [.task other]) (apart : other ≠ task)
      (watches : agenda.Watches other)
  | interrupted {other : TaskId} {first : Wake → Process State Result}
      {watchers : List (TaskId × Nat)} (queue : agenda.queue = [.task other]) (apart : other ≠ task)
      (known : agenda.tasks[other]? = some ⟨.queued first true, watchers⟩)
      (gives : first .interrupted = .finish none) (own : ∀ watcher ∈ watchers, watcher.1 = task)

variable {agenda : Agenda State Result} {task : TaskId}

/-- Then nothing is left to do once the task has ended. -/
theorem Remains.finish {status : TaskStatus State Result} (remains : agenda.Remains task)
    (alarms : agenda.alarms = []) (known : agenda.tasks[task]? = some ⟨status, []⟩)
    (result : Option Result) :
    ∃ after : Agenda State Result, (carryOn task (.finish result) agenda).Reaches after ∧
      after.Idle ∧ after.statusOf task = .ended result ∧ after.state = agenda.state := by
  let ended : Agenda State Result := agenda.setStatus task (.ended result)
  have ends : carryOn task (.finish result) agenda = ended := by
    simp [carryOn, Agenda.finish, known, ended, Agenda.setStatus]
  have known' : ended.tasks[task]? = some ⟨.ended result, []⟩ := getElem?_setStatus_self known _
  rw [ends]
  cases remains with
  | nothing queue => exact ⟨ended, .refl ended, ⟨queue, alarms⟩, statusOf_eq known', rfl⟩
  | @watcher other queue apart watches =>
      obtain ⟨there, -⟩ := Array.getElem?_eq_some_iff.mp known
      obtain ⟨after, _, reaches, queueEq, settled, found, -⟩ :=
        @Reaches.settleFor _ _ task agenda ended (.ended result) (some other) [] there rfl rfl queue
          (by rintro other ⟨⟩; exact ⟨apart, watches⟩)
      exact ⟨after, reaches, ⟨queueEq, settled.alarms.trans alarms⟩, statusOf_eq found,
        settled.state⟩
  | @interrupted other first watchers queue apart found gives own =>
      have found' : ended.tasks[other]? = some ⟨.queued first true, watchers⟩ :=
        (agenda.getElem?_setStatus_of_ne apart _).trans found
      have goes := @Reaches.resume_interrupted _ _ ended _ _ _ _ queue found'
      let last : Agenda State Result := ended.setStatus other (.ended none)
      have gone : carryOn other (first .interrupted) { ended with queue := [] } =
          { last with queue := watchers.map (fun watcher => .wake watcher.1 watcher.2) } := by
        have watched : ({ ended with queue := [] } : Agenda State Result).tasks[other]? =
            some ⟨.queued first true, watchers⟩ := found'
        rw [gives, carryOn, Agenda.finish, watched]
        rfl
      have known'' : last.tasks[task]? = some ⟨.ended result, []⟩ :=
        (ended.getElem?_setStatus_of_ne apart.symm _).trans known'
      rw [gone] at goes
      refine ⟨{ last with queue := [] }, goes.trans ?_, ⟨rfl, alarms⟩, statusOf_eq known'', rfl⟩
      refine @Reaches.wakes_stale _ _ { last with queue := _ } [] watchers
        (List.append_nil _).symm ?_
      intro watcher member left waits
      have same : TaskStatus.waiting left watcher.2 = .ended result := by
        rw [← waits, own watcher member]
        exact statusOf_eq known''
      cases same

end Agenda

/-- Settling changes at most the status of a task. -/
theorem TaskEntry.Settles.exists_status {own : Prop} {before after : TaskEntry State Result}
    (settles : before.Settles own after) : ∃ status, after = ⟨status, before.watchers⟩ := by
  cases settles with
  | kept => exact ⟨_, rfl⟩
  | waits => exact ⟨_, rfl⟩
  | own => exact ⟨_, rfl⟩

/-- A task that waits goes on waiting while another one runs by itself. -/
theorem TaskEntry.Settles.eq_of_waiting {next : Wake → Process State Result} {wait : Nat}
    {watchers : List (TaskId × Nat)} {after : TaskEntry State Result}
    (settles : TaskEntry.Settles False ⟨.waiting next wait, watchers⟩ after) :
    after = ⟨.waiting next wait, watchers⟩ := by
  cases settles with
  | kept => rfl
  | own same => exact same.elim

/-- Of the other tasks nothing but the end of the bystander is seen beside work. -/
theorem Agenda.Beside.of_ne {work bound : Nat} {before after : Agenda State Result}
    (beside : Agenda.Beside work bound before after) {other : TaskId} (below : other < bound)
    (different : other ≠ work) {entry : TaskEntry State Result}
    (found : before.tasks[other]? = some entry) :
    ∃ entry', after.tasks[other]? = some entry' ∧ entry.Settles False entry' := by
  obtain ⟨entry', found', settles⟩ := beside other below entry found
  rw [eq_false different] at settles
  exact ⟨entry', found', settles⟩

namespace Agenda

variable {agenda : Agenda State Result} {task work : TaskId}

/-- A task waits for two others that it has just started. -/
theorem exists_attending (known : task < agenda.tasks.size) (idle : agenda.Idle)
    (first second : Process State Result) (next : Wake → Process State Result) :
    ∃ (after : Agenda State Result) (wait : Nat) (begin begin' : Wake → Process State Result),
      carryOn task (.awaitAny [agenda.tasks.size, agenda.tasks.size + 1] next)
          ((agenda.start first).start second) = after ∧
        after.queue = [.task agenda.tasks.size, .task (agenda.tasks.size + 1)] ∧
        after.alarms = [] ∧ after.tokens = agenda.tokens ∧ after.state = agenda.state ∧
        (∀ entry, agenda.tasks[task]? = some entry →
          after.tasks[task]? = some ⟨.waiting next wait, entry.watchers⟩) ∧
        after.tasks[agenda.tasks.size]? = some ⟨.queued begin false, [(task, wait)]⟩ ∧
        begin .resumed = first ∧
        after.tasks[agenda.tasks.size + 1]? = some ⟨.queued begin' false, [(task, wait)]⟩ ∧
        begin' .resumed = second ∧ begin' .interrupted = .finish none := by
  let one := agenda.start first
  let two := one.start second
  let waiting := two.enterWait task next
  have size : one.tasks.size = agenda.tasks.size + 1 := Array.size_push _
  obtain ⟨begin, foundOne, begins, -⟩ := agenda.getElem?_start_self first
  obtain ⟨begin', foundTwo, begins', gives'⟩ := one.getElem?_start_self second
  rw [size] at foundTwo
  have unchanged : ∀ other, other ≠ task → waiting.tasks[other]? = two.tasks[other]? :=
    fun other apart => two.getElem?_setStatus_of_ne apart _
  have apart : agenda.tasks.size ≠ task := Nat.ne_of_gt known
  have apart' : agenda.tasks.size + 1 ≠ task := Nat.ne_of_gt (Nat.lt_succ_of_lt known)
  have oneWaiting := (unchanged _ apart).trans (one.getElem?_start second foundOne)
  have twoWaiting := (unchanged _ apart').trans foundTwo
  let half := waiting.addWatcher agenda.tasks.size (task, two.nextWait)
  have twoHalf : half.tasks[agenda.tasks.size + 1]? = some ⟨.queued begin' false, []⟩ := by
    rw [getElem?_addWatcher, if_neg (Nat.succ_ne_self _).symm]
    exact twoWaiting
  refine ⟨half.addWatcher (agenda.tasks.size + 1) (task, two.nextWait), two.nextWait, begin, begin',
    ?_, ?_, idle.alarms, rfl, rfl, ?_, ?_, begins, ?_, begins', gives'⟩
  · rw [carryOn, List.foldl_cons, List.foldl_cons, List.foldl_nil, watch_queued oneWaiting,
      watch_queued twoHalf]
  · simp [half, waiting, two, one, addWatcher, enterWait, Agenda.setStatus, start, idle.queue]
  · intro entry found
    rw [getElem?_addWatcher, if_neg apart', getElem?_addWatcher, if_neg apart]
    exact getElem?_setStatus_self (one.getElem?_start second (agenda.getElem?_start first found)) _
  · rw [getElem?_addWatcher, if_neg (Nat.succ_ne_self _), getElem?_addWatcher, if_pos rfl,
      oneWaiting]
    rfl
  · rw [getElem?_addWatcher, if_pos rfl, twoHalf]
    rfl

/-- The end of work lets the one go on that waits for it, when the others have settled. -/
theorem Alone.finish {next : Wake → Process State Result} {status : TaskStatus State Result}
    {wait : Nat} {watchers : List (TaskId × Nat)} (alone : agenda.Alone work) (apart : task ≠ work)
    (own : agenda.tasks[task]? = some ⟨.waiting next wait, watchers⟩)
    (watched : agenda.tasks[work]? = some ⟨status, [(task, wait)]⟩) (result : Option Result) :
    ∃ after : Agenda State Result,
      (carryOn work (.finish result) agenda).Reaches (carryOn task (next .resumed) after) ∧
        after.Idle ∧ after.state = agenda.state ∧
        after.tasks[task]? = some ⟨.queued next false, watchers⟩ ∧
        (∃ watchers', after.tasks[work]? = some ⟨.ended result, watchers'⟩) ∧
        ∀ other entry, other ≠ task → other ≠ work → agenda.tasks[other]? = some entry →
          ∃ entry', after.tasks[other]? = some entry' ∧ entry.Settles False entry' := by
  obtain ⟨known, alarms, bystander, queue, watches⟩ := alone
  let ending : Agenda State Result := { agenda.setStatus work (.ended result) with
    queue := agenda.queue ++ [.wake task wait] }
  have ends : carryOn work (.finish result) agenda = ending := by
    rw [carryOn, Agenda.finish, watched]
    rfl
  have queueEq : ending.queue = bystander.toList.map .task ++ [.wake task wait] :=
    congrArg (· ++ _) queue
  obtain ⟨settled, endWatchers, reaches, queueAfter, frame, ended, beside⟩ :=
    @Reaches.settleFor _ _ work agenda ending _ _ _ known rfl rfl queueEq watches
  have settles : ∀ other entry, other ≠ work → agenda.tasks[other]? = some entry →
      ∃ entry', settled.tasks[other]? = some entry' ∧ entry.Settles False entry' :=
    fun other entry different found =>
      (beside (other + 1)).of_ne (Nat.lt_succ_self _) different found
  have waits : settled.tasks[task]? = some ⟨.waiting next wait, watchers⟩ := by
    obtain ⟨entry', found', stays⟩ := settles task _ apart own
    rwa [stays.eq_of_waiting] at found'
  rw [ends]
  refine ⟨_, reaches.trans (Reaches.rouse queueAfter waits), ⟨rfl, frame.alarms.trans alarms⟩,
    frame.state, ?_, ⟨endWatchers, ?_⟩, ?_⟩
  · exact getElem?_setStatus_self waits _
  · exact (settled.getElem?_setStatus_of_ne apart.symm _).trans ended
  · intro other entry different different' found
    obtain ⟨entry', found', stays⟩ := settles other entry different' found
    exact ⟨entry', (settled.getElem?_setStatus_of_ne different _).trans found', stays⟩

/-- A task that watches or is about to watch a token may be interrupted. -/
theorem Idle.interrupt {other : TaskId} {first : Wake → Process State Result} {wait : Nat}
    {entry : TaskEntry State Result} (idle : agenda.Idle) (apart : other ≠ task)
    (found : agenda.tasks[other]? = some entry)
    (settles : TaskEntry.Settles False ⟨.queued first false, [(task, wait)]⟩ entry) :
    (agenda.interrupt other).Remains task ∧ (agenda.interrupt other).alarms = [] ∧
      (agenda.interrupt other).state = agenda.state ∧
      ∀ own, own ≠ other → (agenda.interrupt other).tasks[own]? = agenda.tasks[own]? := by
  have unchanged : ∀ status own, own ≠ other →
      (agenda.setStatus other status).tasks[own]? = agenda.tasks[own]? :=
    fun status own different => agenda.getElem?_setStatus_of_ne different status
  cases settles with
  | kept =>
      have same : agenda.interrupt other = agenda.setStatus other (.queued first true) := by
        rw [Agenda.interrupt, statusOf_eq found]
      rw [same]
      exact ⟨.nothing idle.queue, idle.alarms, rfl, unchanged _⟩
  | @waits _ next wait' _ _ gives' =>
      have same : agenda.interrupt other = { agenda.setStatus other (.queued next true) with
          queue := [.task other], alarms := [] } := by
        simp [Agenda.interrupt, statusOf_eq found, enqueue, dropAlarms, Agenda.setStatus,
          idle.queue, idle.alarms]
      have known : (agenda.setStatus other (.queued next true)).tasks[other]? =
          some ⟨.queued next true, [(task, wait)]⟩ := getElem?_setStatus_self found _
      rw [same]
      refine ⟨.interrupted rfl apart known gives' ?_, rfl, rfl, unchanged _⟩
      rintro watcher member
      rw [List.mem_singleton.mp member]
  | own same => exact same.elim

end Agenda

/-- Holds of the agendas in which nobody has cancelled a token. -/
def Agenda.Grants (agenda : Agenda State Result) (token : TokenId) : Prop :=
  ∃ watchers, agenda.tokens[token]? = some ⟨none, watchers⟩

/-- Holds if an act of a task ends, however it does, with an output and a state that meet a
condition, where nothing else is left to do when it begins, and nobody has cancelled the token. -/
def Act.Concludes (act : Act State Result Fault Output) (token : Option TokenId) (before : State)
    (meets : Except (Stop Fault) Output → State → Prop) : Prop :=
  ∀ (task : TaskId) (next : Except (Stop Fault) Output → Process State Result)
      (agenda : Agenda State Result), task < agenda.tasks.size → agenda.Idle →
      (∀ granted ∈ token, agenda.Grants granted) → agenda.state = before →
    ∃ ended after, meets ended after.state ∧ after.alarms = [] ∧ after.Remains task ∧
      (∀ entry, agenda.tasks[task]? = some entry →
        ∃ status, after.tasks[task]? = some ⟨status, entry.watchers⟩) ∧
      (Agenda.carryOn task (act next) agenda).Reaches (Agenda.carryOn task (next ended) after)

namespace Act.Brings

open Agenda

variable {act : Act State Result Fault Output} {before : State}
  {meets : Except (Stop Fault) Output → State → Prop}

/-- What an act brings is also what it concludes with. -/
theorem concludes (brings : act.Brings before meets) (token : Option TokenId) :
    act.Concludes token before meets := by
  intro task next agenda known idle _ begun
  obtain ⟨ended, after, met, ⟨-, alarms, bystander, queue, watches⟩, beside, reaches⟩ :=
    brings task next agenda (.of_queue known idle.alarms idle.queue) begun
  refine ⟨ended, after, met, alarms, ?_, fun entry found => ?_, reaches⟩
  · cases bystander with
    | none => exact .nothing queue
    | some other => exact .watcher queue (watches other rfl).1 (watches other rfl).2
  · obtain ⟨entry', found', settles⟩ := beside task known entry found
    obtain ⟨status, rfl⟩ := settles.exists_status
    exact ⟨status, found'⟩

end Act.Brings

namespace Act.Brings

open Agenda

variable {act : Act State (Except Fault Output) Fault Output} {before : State}
  {meets : Except (Stop Fault) Output → State → Prop}

/-- Work begins beside a watcher of its token, and its end decides unless it is cancelled. -/
theorem carryOn_untilCancelled (onCancel : String → Fault) {token : TokenId}
    {agenda : Agenda State (Except Fault Output)} (granted : agenda.Grants token) (task : TaskId)
    (next : Except (Stop Fault) Output → Process State (Except Fault Output)) :
    ∃ carry,
      carryOn task (Act.untilCancelled onCancel act token next) agenda =
          carryOn task (.awaitAny [agenda.tasks.size, agenda.tasks.size + 1] carry)
            ((agenda.start (toProcess act)).start (run (awaitCancel token : Act _ _ Fault Unit))) ∧
        ∀ (after : Agenda State (Except Fault Output)) result watchers,
          (after.interrupt (agenda.tasks.size + 1)).tasks[agenda.tasks.size]? =
              some ⟨.ended result, watchers⟩ →
            carryOn task (carry .resumed) after =
              carryOn task (next (endOf result)) (after.interrupt (agenda.tasks.size + 1)) := by
  obtain ⟨waiters, granted⟩ := granted
  obtain ⟨ask, carry, tell, asks, asked, resumed, tells⟩ :
      ∃ (ask : Option String → Process State (Except Fault Output))
        (carry : TaskId → TaskId → Wake → Process State (Except Fault Output))
        (tell : TaskId → Option (Option (Except Fault Output)) → _),
      Act.untilCancelled onCancel act token next = .cancelled token ask ∧
      ask none = .start (toProcess act) (fun work =>
        .start (run (awaitCancel token : Act _ _ Fault Unit)) fun watcher =>
          .awaitAny [work, watcher] (carry work watcher)) ∧
      (∀ work watcher, carry work watcher .resumed = .interrupt watcher (.ended work (tell work))) ∧
      ∀ work result, tell work (some result) = Act.resultOf work next :=
    ⟨_, _, _, rfl, rfl, fun _ _ => rfl, fun _ _ => rfl⟩
  refine ⟨carry agenda.tasks.size (agenda.tasks.size + 1), ?_, ?_⟩
  · have uncancelled : agenda.reasonOf token = none := by
      rw [reasonOf, granted]
      rfl
    have size : (agenda.start (toProcess act)).tasks.size = agenda.tasks.size + 1 :=
      Array.size_push _
    calc
      carryOn task (Act.untilCancelled onCancel act token next) agenda =
          carryOn task (ask (agenda.reasonOf token)) agenda := by
        rw [asks]
        rfl
      _ = carryOn task (ask none) agenda := by rw [uncancelled]
      _ = _ := by
        rw [asked, ← size]
        rfl
  · intro after result watchers ended
    rw [resumed, carryOn, carryOn, statusOf_eq ended]
    dsimp only
    rw [tells, carryOn_resultOf ended]

/-- An act that is not cancelled concludes with what it brings. -/
theorem untilCancelled (brings : act.Brings before meets) (onCancel : String → Fault)
    (token : TokenId) :
    (Act.untilCancelled onCancel act token).Concludes (some token) before meets := by
  rintro task next agenda known idle grants rfl
  obtain ⟨waiters, granted⟩ := grants token rfl
  let work : TaskId := agenda.tasks.size
  let watcher : TaskId := agenda.tasks.size + 1
  obtain ⟨carry, begins, tells⟩ :=
    @carryOn_untilCancelled _ _ _ act onCancel token agenda ⟨waiters, granted⟩ task next
  obtain ⟨attending, wait, begin, begin', attends, queue, alarms, tokens, same, own, foundWork,
    startsWork, foundWatcher, startsWatcher, givesWatcher⟩ :=
    exists_attending known idle (toProcess act) (run (awaitCancel token : Act _ _ Fault Unit)) carry
  rw [begins, attends]
  -- The work goes on, while the watcher is about to watch.
  let working : Agenda State (Except Fault Output) := { attending with queue := [.task watcher] }
  have alone : working.Alone work := by
    refine ⟨(Array.getElem?_eq_some_iff.mp foundWork).1, alarms, some watcher, rfl, ?_⟩
    rintro other ⟨⟩
    refine ⟨Nat.succ_ne_self _, begin', _, _, token, waiters, foundWatcher, startsWatcher,
      givesWatcher, ?_, ?_⟩
    · rfl
    · exact tokens.symm ▸ granted
  obtain ⟨finish, worksBy, finishes⟩ := toProcess_eq act
  obtain ⟨ended, after, met, alone', beside, works⟩ := brings work finish working alone same
  obtain ⟨result, ends, rfl⟩ := finishes ended
  have apart : task ≠ work := Nat.ne_of_lt known
  have apart' : watcher ≠ task := Nat.ne_of_gt (Nat.lt_succ_of_lt known)
  have settled : ∀ other entry, other ≠ work → attending.tasks[other]? = some entry →
      ∃ entry', after.tasks[other]? = some entry' ∧ entry.Settles False entry' :=
    fun other entry different found =>
      beside.of_ne (Array.getElem?_eq_some_iff.mp found).1 different found
  -- What has become of the task, of the work and of the watcher by then.
  have found := Array.getElem?_eq_getElem known
  have waits : after.tasks[task]? = some ⟨.waiting carry wait, agenda.tasks[task].watchers⟩ := by
    obtain ⟨entry', found', settles⟩ := settled task _ apart (own _ found)
    rwa [settles.eq_of_waiting] at found'
  obtain ⟨workEntry, watched, workSettles⟩ :=
    beside work (Array.getElem?_eq_some_iff.mp foundWork).1 _ foundWork
  obtain ⟨workStatus, rfl⟩ := workSettles.exists_status
  obtain ⟨watcherEntry, foundWatcher', watcherSettles⟩ :=
    settled watcher _ (Nat.succ_ne_self _) foundWatcher
  obtain ⟨woken, goes, idle', state', own', ⟨workWatchers, hasEnded⟩, others⟩ :=
    alone'.finish apart waits watched result
  obtain ⟨watcherEntry', foundWatcher'', watcherSettles'⟩ :=
    others watcher watcherEntry apart' (Nat.succ_ne_self _) foundWatcher'
  obtain ⟨remains, alarms', state'', unchanged⟩ :=
    idle'.interrupt apart' foundWatcher'' (watcherSettles.trans watcherSettles')
  refine ⟨endOf result, woken.interrupt watcher, ?_, alarms', remains, ?_, ?_⟩
  · rw [state'', state']
    exact met
  · intro entry found'
    obtain rfl := Option.some.inj (found.symm.trans found')
    exact ⟨_, (unchanged task apart'.symm).trans own'⟩
  · rw [tells woken result workWatchers
      ((unchanged work (Nat.succ_ne_self _).symm).trans hasEnded)] at goes
    have begins' := Reaches.resume queue foundWork
    rw [if_neg Bool.false_ne_true, startsWork, worksBy] at begins'
    rw [ends] at works
    exact begins'.trans (works.trans goes)

/-- An act that may be cancelled, but is not, concludes with what it brings. -/
theorem cancellable (brings : act.Brings before meets) (onCancel : String → Fault)
    (token : Option TokenId) :
    (Act.cancellable onCancel act token).Concludes token before meets := by
  cases token with
  | none => exact brings.concludes none
  | some token => exact brings.untilCancelled onCancel token

end Act.Brings

/-- Acts that carry on alike conclude alike. -/
theorem Act.Concludes.congr {act act' : Act State Result Fault Output} {token : Option TokenId}
    {before : State} {meets : Except (Stop Fault) Output → State → Prop}
    (concludes : act.Concludes token before meets)
    (same : ∀ task next (agenda : Agenda State Result), agenda.state = before →
      Agenda.carryOn task (act' next) agenda = Agenda.carryOn task (act next) agenda) :
    act'.Concludes token before meets := by
  intro task next agenda known idle grants begun
  rw [same task next agenda begun]
  exact concludes task next agenda known idle grants begun

/-- **A task that is started while nothing else is left to do ends as its act concludes**, and then
nothing is left to do. -/
theorem Act.Concludes.run {act : Act State (Except Fault Output) Fault Output}
    {token : Option TokenId} {before : State} {meets : Except (Stop Fault) Output → State → Prop}
    (concludes : act.Concludes token before meets) {agenda : Agenda State (Except Fault Output)}
    (idle : agenda.Idle) (grants : ∀ granted ∈ token, agenda.Grants granted)
    (begun : agenda.state = before) :
    ∃ result after, (agenda.start (toProcess act)).Reaches after ∧ after.Idle ∧
      after.statusOf agenda.tasks.size = .ended result ∧ meets (endOf result) after.state := by
  obtain ⟨first, found, begins, -⟩ := agenda.getElem?_start_self (toProcess act)
  obtain ⟨finish, same, finishes⟩ := toProcess_eq act
  have queue : (agenda.start (toProcess act)).queue = [.task agenda.tasks.size] :=
    congrArg (· ++ _) idle.queue
  let begun' : Agenda State (Except Fault Output) :=
    { agenda.start (toProcess act) with queue := [] }
  obtain ⟨ended, after, met, alarms, remains, own, reaches⟩ :=
    concludes agenda.tasks.size finish begun' (Array.getElem?_eq_some_iff.mp found).1
      ⟨rfl, idle.alarms⟩ grants begun
  obtain ⟨result, ends, rfl⟩ := finishes ended
  obtain ⟨status, own⟩ := own _ found
  obtain ⟨final, finishes, idle', hasEnded, same'⟩ := remains.finish alarms own result
  have begins' := Agenda.Reaches.resume queue found
  rw [if_neg Bool.false_ne_true, begins] at begins'
  rw [ends, ← same] at reaches
  exact ⟨result, final, begins'.trans (reaches.trans finishes), idle', hasEnded, same'.symm ▸ met⟩

end ModelAssist
