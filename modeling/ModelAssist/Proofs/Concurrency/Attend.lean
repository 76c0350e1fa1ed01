import ModelAssist.Proofs.Concurrency.Alone

/-!
# Waiting for a task

A task that waits for another one, while nothing else goes on.
-/

namespace ModelAssist

variable {State Result : Type}

/-- What becomes of a task while another one runs by itself: it stays as it is, or it begins a wait
that it leaves only to end.  Of the running task only those are kept that wait for its end. -/
inductive TaskEntry.Settles (own : Prop) : TaskEntry State Result → TaskEntry State Result → Prop
  | kept (entry : TaskEntry State Result) : Settles own entry entry
  | waits {first next : Wake → Process State Result} {wait : Nat} {watchers : List (TaskId × Nat)}
      (gives : first .interrupted = .finish none) (gives' : next .interrupted = .finish none) :
      Settles own ⟨.queued first false, watchers⟩ ⟨.waiting next wait, watchers⟩
  | own {status status' : TaskStatus State Result} {watchers : List (TaskId × Nat)} (same : own) :
      Settles own ⟨status, watchers⟩ ⟨status', watchers⟩

/-- What settles a task in two steps settles it. -/
theorem TaskEntry.Settles.trans {own : Prop} {first second third : TaskEntry State Result}
    (before : first.Settles own second) (after : second.Settles own third) :
    first.Settles own third := by
  cases before with
  | kept => exact after
  | waits gives gives' =>
      cases after with
      | kept => exact .waits gives gives'
      | own same => exact .own same
  | own same =>
      cases after with
      | kept => exact .own same
      | waits => exact .own same
      | own => exact .own same

namespace Agenda

/-- Holds if the tasks below a bound settled while one of them ran by itself. -/
def Beside (task : TaskId) (bound : Nat) (before after : Agenda State Result) : Prop :=
  ∀ other < bound, ∀ entry, before.tasks[other]? = some entry →
    ∃ entry', after.tasks[other]? = some entry' ∧ entry.Settles (other = task) entry'

/-- Holds of the tasks that are about to wait for a token that was not cancelled, and that do
nothing else. -/
def Watches (agenda : Agenda State Result) (other : TaskId) : Prop :=
  ∃ first next watchers token waiters,
    agenda.tasks[other]? = some ⟨.queued first false, watchers⟩ ∧
      first .resumed = .awaitCancel token next ∧ first .interrupted = .finish none ∧
      next .interrupted = .finish none ∧ agenda.tokens[token]? = some ⟨none, waiters⟩

/-- What the turn of a task that begins to watch leaves as it is. -/
structure Settled (bystander : Option TaskId) (before after : Agenda State Result) : Prop where
  state : after.state = before.state
  now : after.now = before.now
  alarms : after.alarms = before.alarms
  deadlines : after.deadlines = before.deadlines
  nextWait : before.nextWait ≤ after.nextWait
  others : ∀ other, other ∉ bystander → after.tasks[other]? = before.tasks[other]?
  watcher : ∀ other ∈ bystander, ∀ entry, before.tasks[other]? = some entry →
    ∃ entry', after.tasks[other]? = some entry' ∧ ∀ own, entry.Settles own entry'

/-- An agenda settles when the turns in the queue before the rest of it have been taken. -/
theorem Reaches.settle {agenda : Agenda State Result} {bystander : Option TaskId}
    {rest : List Turn} (queue : agenda.queue = bystander.toList.map .task ++ rest)
    (watches : ∀ other ∈ bystander, agenda.Watches other) :
    ∃ after, agenda.Reaches after ∧ after.queue = rest ∧ Settled bystander agenda after := by
  cases bystander with
  | none =>
      exact ⟨agenda, .refl agenda, queue, rfl, rfl, rfl, rfl, Nat.le_refl _, fun _ _ => rfl,
        by rintro _ ⟨⟩⟩
  | some other =>
      obtain ⟨first, next, watchers, token, waiters, known, begins, gives, gives', uncancelled⟩ :=
        watches other rfl
      have goes := Reaches.resume queue known
      rw [if_neg Bool.false_ne_true, begins] at goes
      simp only [carryOn, uncancelled] at goes
      refine ⟨_, goes, rfl, rfl, rfl, rfl, rfl, Nat.le_succ _, ?_, ?_⟩
      · intro task different
        exact getElem?_setStatus_of_ne _ (fun same => different (congrArg _ same.symm)) _
      · intro watcher same entry found
        obtain rfl : other = watcher := Option.some.inj same
        obtain rfl := Option.some.inj (known.symm.trans found)
        refine ⟨⟨.waiting next agenda.nextWait, watchers⟩, ?_, fun own => .waits gives gives'⟩
        exact getElem?_setStatus_self known _

/-- The agenda after a wait was noted with a task whose end it waits for. -/
def addWatcher (agenda : Agenda State Result) (other : TaskId) (watcher : TaskId × Nat) :
    Agenda State Result :=
  { agenda with
    tasks := agenda.tasks.modify other fun old =>
      { old with watchers := old.watchers ++ [watcher] } }

/-- A task gains a watcher and the other tasks stay as they are. -/
theorem getElem?_addWatcher (agenda : Agenda State Result) (other : TaskId)
    (watcher : TaskId × Nat) (task : TaskId) :
    (agenda.addWatcher other watcher).tasks[task]? =
      if other = task then
        agenda.tasks[task]?.map fun old => { old with watchers := old.watchers ++ [watcher] }
      else agenda.tasks[task]? :=
  Array.getElem?_modify

/-- Watching a task that is in the queue adds a watcher to it. -/
theorem watch_queued {agenda : Agenda State Result} {other : TaskId}
    {next : Wake → Process State Result} {isInterrupted : Bool} {watchers : List (TaskId × Nat)}
    (found : agenda.tasks[other]? = some ⟨.queued next isInterrupted, watchers⟩) (task : TaskId)
    (wait : Nat) : watch task wait agenda other = agenda.addWatcher other (task, wait) := by
  rw [watch, statusOf_eq found]
  rfl

/-- Holds if a task waits for another one, and nothing else is in the queue.  The other one may
still be told to wake it from waits that are over. -/
structure Attends (task child : TaskId) (next : Wake → Process State Result)
    (agenda : Agenda State Result) : Prop where
  queue : agenda.queue = []
  waits : ∃ wait stale status watchers,
    agenda.tasks[task]? = some ⟨.waiting next wait, watchers⟩ ∧
      agenda.tasks[child]? = some ⟨status, (stale ++ [wait]).map (task, ·)⟩ ∧
      wait ∉ stale ∧ ∀ older ∈ stale ++ [wait], older < agenda.nextWait

/-- Holds if a task may wait for one that is in the queue to go on with a process, where nothing
else is in the queue but a task that is about to watch. -/
structure Expects (task child : TaskId) (process : Process State Result)
    (agenda : Agenda State Result) : Prop where
  known : task < agenda.tasks.size
  older : task < child
  calm : ∃ bystander : Option TaskId,
    agenda.queue = bystander.toList.map .task ++ [.task child] ∧
      ∀ other ∈ bystander, other ≠ task ∧ other ≠ child ∧ agenda.Watches other
  queued : ∃ (first : Wake → Process State Result) (isInterrupted : Bool) (stale : List Nat),
    agenda.tasks[child]? = some ⟨.queued first isInterrupted, stale.map (task, ·)⟩ ∧
      (∀ wait ∈ stale, wait < agenda.nextWait) ∧
      first (if isInterrupted then .interrupted else .resumed) = process

variable {agenda : Agenda State Result} {task child : TaskId} {next : Wake → Process State Result}
  {process : Process State Result}

/-- A task that begins to wait for one in the queue lets it go on. -/
theorem Expects.attend (expects : Expects task child process agenda)
    (next : Wake → Process State Result) :
    ∃ after,
      (carryOn task (.awaitAny [child] next) agenda).Reaches (carryOn child process after) ∧
        Attends task child next after ∧ Beside task child agenda after ∧
        after.state = agenda.state ∧ after.now = agenda.now ∧ after.alarms = agenda.alarms ∧
        after.deadlines = agenda.deadlines := by
  obtain ⟨known, older, ⟨bystander, queue, watches⟩, first, isInterrupted, stale, queued, bounded,
    rfl⟩ := expects
  have apart : child ≠ task := Nat.ne_of_gt older
  let waiting : Agenda State Result := agenda.enterWait task next
  let attending := waiting.addWatcher child (task, agenda.nextWait)
  have unchanged :
      waiting.tasks[child]? = some ⟨.queued first isInterrupted, stale.map (task, ·)⟩ :=
    (agenda.getElem?_setStatus_of_ne apart _).trans queued
  have begins : carryOn task (.awaitAny [child] next) agenda = attending :=
    watch_queued unchanged task agenda.nextWait
  have others : ∀ other, other ≠ task → other ≠ child →
      attending.tasks[other]? = agenda.tasks[other]? := by
    intro other different different'
    rw [getElem?_addWatcher, if_neg different'.symm]
    exact agenda.getElem?_setStatus_of_ne different _
  have own : ∀ entry, agenda.tasks[task]? = some entry →
      attending.tasks[task]? = some ⟨.waiting next agenda.nextWait, entry.watchers⟩ := by
    intro entry found
    rw [getElem?_addWatcher, if_neg apart]
    exact getElem?_setStatus_self found _
  have watched : attending.tasks[child]? =
      some ⟨.queued first isInterrupted, (stale ++ [agenda.nextWait]).map (task, ·)⟩ := by
    rw [getElem?_addWatcher, if_pos rfl, unchanged, List.map_append]
    rfl
  have watches' : ∀ other ∈ bystander, attending.Watches other := by
    intro other member
    obtain ⟨different, different', first, next, watchers, token, waiters, known, rest⟩ :=
      watches other member
    exact ⟨first, next, watchers, token, waiters, (others other different different').trans known,
      rest⟩
  obtain ⟨after, reaches, queueEq, settled⟩ := @Reaches.settle _ _ attending _ _ queue watches'
  have unseen {other : TaskId} (different : ∀ watcher ∈ bystander, watcher ≠ other) :
      other ∉ bystander := fun member => different other member rfl
  have ownAfter := settled.others task (unseen fun other member => (watches other member).1)
  have childAfter := settled.others child (unseen fun other member => (watches other member).2.1)
  obtain ⟨entryOwn, foundOwn⟩ : ∃ entry, agenda.tasks[task]? = some entry :=
    ⟨_, Array.getElem?_eq_getElem known⟩
  refine ⟨{ after with queue := [] }, ?_, ?_, ?_, settled.state, settled.now, settled.alarms,
    settled.deadlines⟩
  · rw [begins]
    exact reaches.trans (Reaches.resume queueEq (childAfter.trans watched))
  · refine ⟨rfl, agenda.nextWait, stale, _, _, ownAfter.trans (own entryOwn foundOwn),
      childAfter.trans watched, fun member => Nat.lt_irrefl _ (bounded _ member), ?_⟩
    intro wait member
    apply Nat.lt_of_lt_of_le _ settled.nextWait
    rcases List.mem_append.mp member with earlier | same
    · exact Nat.lt_succ_of_lt (bounded wait earlier)
    · rw [List.mem_singleton.mp same]
      exact Nat.lt_succ_self _
  · intro other below entry found
    by_cases same : other = task
    · subst same
      exact ⟨_, ownAfter.trans (own entry found), .own rfl⟩
    · have unchanged := (others other same (Nat.ne_of_lt below)).trans found
      by_cases member : other ∈ bystander
      · obtain ⟨entry', found', settles⟩ := settled.watcher other member entry unchanged
        exact ⟨entry', found', settles _⟩
      · exact ⟨entry, (settled.others other member).trans unchanged, .kept entry⟩

namespace Beside

variable {bound : Nat} {before middle after : Agenda State Result}

/-- What happens beside a task in two steps happens beside it. -/
theorem trans (first : Beside task bound before middle) (second : Beside task bound middle after) :
    Beside task bound before after := by
  intro other below entry found
  obtain ⟨entry', found', settles⟩ := first other below entry found
  obtain ⟨entry'', found'', settles'⟩ := second other below entry' found'
  exact ⟨entry'', found'', settles.trans settles'⟩

/-- Resuming a younger task is something beside an older one. -/
theorem of_resumed (resumed : Resumed child before after) : Beside task child before after :=
  fun other below entry found =>
    ⟨entry, (resumed.others other (Nat.ne_of_lt below)).trans found, .kept entry⟩

/-- A child may get any status beside its parent. -/
theorem setStatus_child (agenda : Agenda State Result) (status : TaskStatus State Result) :
    Beside task child agenda (agenda.setStatus child status) :=
  .of_resumed (.setStatus agenda status agenda.state agenda.now (Nat.le_refl _))

/-- The own status of a task is nothing beside it. -/
theorem setStatus (status : TaskStatus State Result) :
    Beside task bound before (before.setStatus task status) := by
  intro other below entry found
  by_cases same : other = task
  · subst same
    exact ⟨⟨status, entry.watchers⟩, getElem?_setStatus_self found _, .own rfl⟩
  · exact ⟨entry, (before.getElem?_setStatus_of_ne same _).trans found, .kept entry⟩

end Beside

/-- Holds of a task that sleeps, or whose sleep has just ended, while nothing else is in the queue
or due. -/
def Held (child : TaskId) (left : Wake → Process State Result) (watchers : List (TaskId × Nat))
    (agenda : Agenda State Result) : Prop :=
  (∃ wait due, agenda.queue = [] ∧ agenda.alarms = [⟨due, .wake child wait⟩] ∧
      agenda.tasks[child]? = some ⟨.waiting left wait, watchers⟩) ∨
    agenda.queue = [.task child] ∧ agenda.alarms = [] ∧
      agenda.tasks[child]? = some ⟨.queued left false, watchers⟩

/-- A child is held also without the deadline of its parent. -/
theorem Held.dropDeadline {left : Wake → Process State Result} {watchers : List (TaskId × Nat)}
    (held : Held child left watchers agenda) (deadline : DeadlineId) (deadlines : Array Deadline) :
    Held child left watchers { agenda.dropAlarms (.deadline deadline) with deadlines } := by
  rcases held with ⟨wait, due, queue, alarms, found⟩ | ⟨queue, alarms, found⟩
  · refine .inl ⟨wait, due, queue, ?_, found⟩
    simp [dropAlarms, alarms]
  · refine .inr ⟨queue, ?_, found⟩
    simp [dropAlarms, alarms]

/-- Such a task is in the queue once it is interrupted. -/
theorem Held.interrupt {left : Wake → Process State Result} {watchers : List (TaskId × Nat)}
    (held : Held child left watchers agenda) :
    agenda.interrupt child = { agenda.setStatus child (.queued left true) with
      queue := [.task child], alarms := [] } := by
  rcases held with ⟨wait, due, queue, alarms, found⟩ | ⟨queue, alarms, found⟩
  · simp [Agenda.interrupt, statusOf_eq found, enqueue, dropAlarms, Agenda.setStatus, queue, alarms]
  · simp [Agenda.interrupt, statusOf_eq found, Agenda.setStatus, ← queue, ← alarms]

/-- A child that is held and interrupted is waited for. -/
theorem Held.expects {left : Wake → Process State Result} {stale : List Nat}
    (held : Held child left (stale.map (task, ·)) agenda) (known : task < agenda.tasks.size)
    (older : task < child) (bounded : ∀ wait ∈ stale, wait < agenda.nextWait) :
    Expects task child (left .interrupted) (agenda.interrupt child) := by
  have found : ∃ status, agenda.tasks[child]? = some ⟨status, stale.map (task, ·)⟩ := by
    rcases held with ⟨_, _, _, _, found⟩ | ⟨_, _, found⟩
    · exact ⟨_, found⟩
    · exact ⟨_, found⟩
  obtain ⟨status, found⟩ := found
  rw [held.interrupt]
  refine ⟨?_, older, ⟨none, rfl, by rintro _ ⟨⟩⟩, left, true, stale, ?_, bounded, rfl⟩
  · exact (size_setStatus agenda child _).symm ▸ known
  · exact getElem?_setStatus_self found _

namespace Attends

/-- A task still attends to a child when the child was resumed. -/
theorem resumed {after : Agenda State Result} (attends : Attends task child next agenda)
    (different : task ≠ child) (resumed : Resumed child agenda after) :
    Attends task child next after := by
  obtain ⟨queue, wait, stale, status, watchers, own, watched, fresh, bounded⟩ := attends
  obtain ⟨status', watched'⟩ := resumed.own _ watched
  exact ⟨resumed.queue.trans queue, wait, stale, status', watchers,
    (resumed.others task different).trans own, watched', fresh,
    fun older member => Nat.lt_of_lt_of_le (bounded older member) resumed.nextWait⟩

/-- A child to which a task attends exists. -/
theorem lt_size (attends : Attends task child next agenda) : child < agenda.tasks.size := by
  obtain ⟨-, wait, stale, status, watchers, -, watched, -⟩ := attends
  exact (Array.getElem?_eq_some_iff.mp watched).1

/-- The end of a task lets the one go on that waits for it. -/
theorem finish (attends : Attends task child next agenda) (older : task < child)
    (result : Option Result) :
    ∃ after,
      (carryOn child (.finish result) agenda).Reaches (carryOn task (next .resumed) after) ∧
        after.queue = [] ∧ Beside task child agenda after ∧
        (∃ watchers, after.tasks[child]? = some ⟨.ended result, watchers⟩) ∧
        after.state = agenda.state ∧ after.now = agenda.now ∧ after.alarms = agenda.alarms ∧
        after.deadlines = agenda.deadlines := by
  obtain ⟨queue, wait, stale, status, watchers, own, watched, fresh, -⟩ := attends
  have apart : child ≠ task := Nat.ne_of_gt older
  let ended : Agenda State Result := agenda.setStatus child (.ended result)
  have ends : carryOn child (.finish result) agenda =
      { ended with queue :=
          (stale.map (task, ·)).map (fun watcher => .wake watcher.1 watcher.2) ++
            [.wake task wait] } := by
    simp [carryOn, Agenda.finish, watched, queue, ended, Agenda.setStatus]
  have own' : ended.tasks[task]? = some ⟨.waiting next wait, watchers⟩ :=
    (agenda.getElem?_setStatus_of_ne apart.symm _).trans own
  have watched' : ended.tasks[child]? =
      some ⟨.ended result, (stale ++ [wait]).map (task, ·)⟩ := getElem?_setStatus_self watched _
  refine ⟨{ ended.setStatus task (.queued next false) with queue := [] }, ?_, rfl, ?_, ?_,
    rfl, rfl, rfl, rfl⟩
  · rw [ends]
    apply Reaches.trans
    · refine @Reaches.wakes_stale _ _ { ended with queue := _ } _ _ rfl ?_
      rintro watcher member left waits
      obtain ⟨stale', among, rfl⟩ := List.mem_map.mp member
      have same : TaskStatus.waiting left stale' = .waiting next wait :=
        waits.symm.trans (statusOf_eq own')
      cases same
      exact fresh among
    · exact @Reaches.rouse _ _ { ended with queue := _ } _ _ _ _ rfl own'
  · exact (Beside.setStatus_child agenda _).trans (.setStatus (.queued next false))
  · exact ⟨_, (ended.getElem?_setStatus_of_ne apart _).trans watched'⟩

/-- A deadline interrupts the one that waits for a task that sleeps beyond it. -/
theorem expire {deadline : DeadlineId} {moment span : Moment} {passed : Bool}
    {left : Wake → Process State Result} (attends : Attends task child next agenda)
    (older : task < child) (alarms : agenda.alarms = [⟨moment, .deadline deadline⟩])
    (set : agenda.deadlines[deadline]? = some ⟨task, true, passed⟩)
    (late : moment ≤ agenda.now + span) :
    ∃ (after : Agenda State Result) (stale : List Nat),
      (carryOn child (.sleep span left) agenda).Reaches (carryOn task (next .interrupted) after) ∧
        Held child left (stale.map (task, ·)) after ∧
        (∀ wait ∈ stale, wait < after.nextWait) ∧ Beside task child agenda after ∧
        after.state = agenda.state ∧ after.now = moment ∧
        after.deadlines = agenda.deadlines.setIfInBounds deadline ⟨task, false, true⟩ := by
  obtain ⟨queue, wait, stale, status, watchers, own, watched, fresh, bounded⟩ := attends
  have apart : child ≠ task := Nat.ne_of_gt older
  let asleep := (agenda.enterWait child left).setAlarm span (.wake child agenda.nextWait)
  have alarmsEq : asleep.alarms = [⟨moment, .deadline deadline⟩,
      ⟨agenda.now + span, .wake child agenda.nextWait⟩] := by
    simp [asleep, enterWait, setAlarm, Agenda.setStatus, alarms]
  have queueEq : asleep.queue = [] := queue
  have ownAsleep : asleep.tasks[task]? = some ⟨.waiting next wait, watchers⟩ :=
    (agenda.getElem?_setStatus_of_ne apart.symm _).trans own
  have childAsleep : asleep.tasks[child]? =
      some ⟨.waiting left agenda.nextWait, (stale ++ [wait]).map (task, ·)⟩ :=
    getElem?_setStatus_self watched _
  let interrupted : Agenda State Result := asleep.setStatus task (.queued next true)
  have childInterrupted : interrupted.tasks[child]? =
      some ⟨.waiting left agenda.nextWait, (stale ++ [wait]).map (task, ·)⟩ :=
    (asleep.getElem?_setStatus_of_ne apart _).trans childAsleep
  have beside : Beside task child agenda interrupted :=
    (Beside.setStatus_child agenda _).trans (.setStatus (.queued next true))
  have below : ∀ older ∈ stale ++ [wait], older < agenda.nextWait + 1 :=
    fun older member => Nat.lt_succ_of_lt (bounded older member)
  obtain ⟨due, moved⟩ := moveTo_two alarmsEq late
  have moves := Reaches.moveTo queueEq due
  rw [moved, queueEq] at moves
  split at moves
  · -- The sleep ends at the same moment; its end is noticed before the task is interrupted.
    have goes := moves.trans (.interrupted_beside rfl rfl set ownAsleep childAsleep apart)
    exact ⟨_, stale ++ [wait], goes, .inr ⟨rfl, rfl, getElem?_setStatus_self childInterrupted _⟩,
      below, beside.trans (.setStatus_child interrupted _), rfl, rfl, rfl⟩
  · have goes := moves.trans (.interrupted rfl set ownAsleep fun alarm member same => by
      rw [List.mem_singleton.mp member] at same
      exact apart (Turn.wake.inj same).1)
    exact ⟨_, stale ++ [wait], goes, .inl ⟨_, _, rfl, rfl, childInterrupted⟩, below, beside, rfl,
      rfl, rfl⟩

end Attends

namespace Expects

variable {limit : Option Moment} {state : State} {now : Moment}

/-- The other one gets where it gets by itself. -/
theorem pursue {pursuit : Pursuit State Result} (expects : Expects task child process agenda)
    (next : Wake → Process State Result)
    (due : ∀ alarm ∈ agenda.alarms, ∃ moment ∈ limit, moment ≤ alarm.due)
    (gets : process.alone limit agenda.state agenda.now = some (pursuit, state, now)) :
    ∃ after,
      (carryOn task (.awaitAny [child] next) agenda).Reaches
          (carryOn child pursuit.process after) ∧
        Attends task child next after ∧ Beside task child agenda after ∧
        after.state = state ∧ after.now = now ∧ after.alarms = agenda.alarms ∧
        after.deadlines = agenda.deadlines := by
  obtain ⟨begun, begins, attends, beside, stateEq, nowEq, alarmsEq, deadlinesEq⟩ :=
    expects.attend next
  rw [← stateEq, ← nowEq] at gets
  rw [← alarmsEq] at due
  obtain ⟨after, runs, resumed, rfl, rfl⟩ :=
    Reaches.alone process attends.lt_size attends.queue due gets
  exact ⟨after, begins.trans runs, attends.resumed (Nat.ne_of_lt expects.older) resumed,
    beside.trans (.of_resumed resumed), rfl, rfl, resumed.alarms.trans alarmsEq,
    resumed.deadlines.trans deadlinesEq⟩

/-- The task goes on when the other one has ended. -/
theorem finish {result : Option Result} (expects : Expects task child process agenda)
    (next : Wake → Process State Result)
    (due : ∀ alarm ∈ agenda.alarms, ∃ moment ∈ limit, moment ≤ alarm.due)
    (gets : process.alone limit agenda.state agenda.now = some (.ended result, state, now)) :
    ∃ after,
      (carryOn task (.awaitAny [child] next) agenda).Reaches (carryOn task (next .resumed) after) ∧
        after.queue = [] ∧ Beside task child agenda after ∧
        (∃ watchers, after.tasks[child]? = some ⟨.ended result, watchers⟩) ∧
        after.state = state ∧ after.alarms = agenda.alarms ∧
        after.deadlines = agenda.deadlines := by
  obtain ⟨middle, runs, attends, beside, rfl, -, alarmsEq, deadlinesEq⟩ :=
    expects.pursue next due gets
  obtain ⟨after, ends, queueEq, beside', ended, stateEq, -, alarmsEq', deadlinesEq'⟩ :=
    attends.finish expects.older result
  exact ⟨after, runs.trans ends, queueEq, beside.trans beside', ended, stateEq,
    alarmsEq'.trans alarmsEq, deadlinesEq'.trans deadlinesEq⟩

/-- The task is interrupted when the other one sleeps beyond the deadline. -/
theorem expire {deadline : DeadlineId} {moment span : Moment} {passed : Bool}
    {left : Wake → Process State Result} (expects : Expects task child process agenda)
    (next : Wake → Process State Result)
    (alarms : agenda.alarms = [⟨moment, .deadline deadline⟩])
    (set : agenda.deadlines[deadline]? = some ⟨task, true, passed⟩)
    (gets : process.alone (some moment) agenda.state agenda.now =
      some (.overdue span left, state, now)) :
    ∃ (after : Agenda State Result) (stale : List Nat),
      (carryOn task (.awaitAny [child] next) agenda).Reaches
          (carryOn task (next .interrupted) after) ∧
        Held child left (stale.map (task, ·)) after ∧
        (∀ wait ∈ stale, wait < after.nextWait) ∧ Beside task child agenda after ∧
        after.state = state ∧ after.now = moment ∧
        after.deadlines = agenda.deadlines.setIfInBounds deadline ⟨task, false, true⟩ := by
  have due : ∀ alarm ∈ agenda.alarms, ∃ due ∈ some moment, due ≤ alarm.due := by
    rw [alarms]
    intro alarm member
    rw [List.mem_singleton.mp member]
    exact ⟨moment, rfl, Nat.le_refl _⟩
  obtain ⟨middle, runs, attends, beside, rfl, rfl, alarmsEq, deadlinesEq⟩ :=
    expects.pursue next due gets
  obtain ⟨_, ⟨⟩, late⟩ := Process.overdue_of_alone gets
  obtain ⟨after, stale, expires, held, bounded, beside', rest⟩ :=
    attends.expire expects.older (alarmsEq.trans alarms) (deadlinesEq ▸ set) late
  rw [deadlinesEq] at rest
  exact ⟨after, stale, runs.trans expires, held, bounded, beside.trans beside', rest⟩

end Expects

end Agenda

end ModelAssist
