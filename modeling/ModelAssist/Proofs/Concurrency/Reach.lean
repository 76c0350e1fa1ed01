import ModelAssist.Proofs.Concurrency.Plan

/-!
# What an agenda comes to

The turns of a run add up (`Agenda.runWithin_add`), so that a run can be followed turn by turn: what
an agenda reaches in some turns, and what it reaches from there.  Here are the turns in which a task
goes on, those that are too late to wake a task, and the move of the clock to what is due next.
-/

namespace ModelAssist

variable {State Result : Type}

namespace Agenda

/-- A run has nothing to do, or it goes on after its first turn. -/
theorem runWithin_cases (limit : Option Moment) (agenda : Agenda State Result) :
    (∀ turns, agenda.runWithin limit turns = agenda) ∨
      ∃ next : Agenda State Result, ∀ turns,
        agenda.runWithin limit (turns + 1) = next.runWithin limit turns := by
  have idle : agenda.runWithin limit 1 = agenda →
      (∀ turns, agenda.runWithin limit (turns + 1) = agenda.runWithin limit 1) →
      ∀ turns, agenda.runWithin limit turns = agenda := by
    intro stays same turns
    cases turns with
    | zero => rfl
    | succ turns => exact (same turns).trans stays
  cases queue : agenda.queue with
  | cons turn rest => exact .inr ⟨_, fun turns => by simp only [runWithin, queue]; rfl⟩
  | nil =>
      cases due : agenda.nextDue? with
      | none =>
          exact .inl (idle (by simp only [runWithin, queue, due])
            fun turns => by simp only [runWithin, queue, due])
      | some moment =>
          by_cases soon : limit.all (moment ≤ ·)
          · exact .inr ⟨agenda.moveTo moment,
              fun turns => by simp only [runWithin, queue, due, soon, ↓reduceIte]⟩
          · exact .inl (idle (by simp only [runWithin, queue, due, soon]; rfl)
              fun turns => by simp only [runWithin, queue, due, soon]; rfl)

/-- The turns of a run add up. -/
theorem runWithin_add (limit : Option Moment) (first second : Nat) (agenda : Agenda State Result) :
    agenda.runWithin limit (first + second) =
      (agenda.runWithin limit first).runWithin limit second := by
  induction first generalizing agenda with
  | zero => rw [Nat.zero_add, runWithin]
  | succ first ih =>
      rcases agenda.runWithin_cases limit with idle | ⟨next, goes⟩
      · simp only [idle]
      · rw [Nat.add_right_comm, goes, goes, ih]

/-- Holds if an agenda comes to another one in some turns. -/
def Reaches (before after : Agenda State Result) : Prop :=
  ∃ turns, before.runWithin none turns = after

/-- What is known of a task. -/
theorem statusOf_eq {agenda : Agenda State Result} {task : TaskId}
    {entry : TaskEntry State Result} (known : agenda.tasks[task]? = some entry) :
    agenda.statusOf task = entry.status := by
  rw [statusOf, known]

/-- Setting a status keeps the watchers of the task and every other task. -/
theorem getElem?_setStatus (agenda : Agenda State Result) (task : TaskId)
    (status : TaskStatus State Result) (other : TaskId) :
    (agenda.setStatus task status).tasks[other]? =
      if task = other then agenda.tasks[other]?.map fun old => { old with status }
      else agenda.tasks[other]? :=
  Array.getElem?_modify

/-- The entry of a task whose status was set. -/
theorem getElem?_setStatus_self {agenda : Agenda State Result} {task : TaskId}
    {entry : TaskEntry State Result} (known : agenda.tasks[task]? = some entry)
    (status : TaskStatus State Result) :
    (agenda.setStatus task status).tasks[task]? = some ⟨status, entry.watchers⟩ := by
  rw [getElem?_setStatus, if_pos rfl, known]
  rfl

/-- Setting the status of a task leaves the entries of others as they are. -/
theorem getElem?_setStatus_of_ne (agenda : Agenda State Result) {task other : TaskId}
    (apart : other ≠ task) (status : TaskStatus State Result) :
    (agenda.setStatus task status).tasks[other]? = agenda.tasks[other]? := by
  rw [getElem?_setStatus, if_neg apart.symm]

/-- The clock moves to the one alarm that is due first. -/
theorem moveTo_first {agenda : Agenda State Result} {later : List Alarm} {first : Alarm}
    (alarms : agenda.alarms = later ++ [first]) (after : ∀ alarm ∈ later, first.due < alarm.due) :
    agenda.nextDue? = some first.due ∧
      agenda.moveTo first.due =
        { agenda with
          now := first.due, alarms := later, queue := agenda.queue ++ [first.turn] } := by
  constructor
  · rw [nextDue?, alarms, List.min?_eq_some_iff]
    refine ⟨by simp, fun moment member => ?_⟩
    obtain ⟨alarm, among, rfl⟩ := List.mem_map.mp member
    rcases List.mem_append.mp among with late | same
    · exact Nat.le_of_lt (after alarm late)
    · exact Nat.le_of_eq (congrArg Alarm.due (List.mem_singleton.mp same).symm)
  · have due : (later ++ [first]).filter (·.due ≤ first.due) = [first] := by
      rw [List.filter_append, List.filter_eq_nil_iff.mpr, List.nil_append]
      · simp
      · simpa using after
    have kept :
        (later ++ [first]).filter (fun alarm => !decide (alarm.due ≤ first.due)) = later := by
      rw [List.filter_append, List.filter_eq_self.mpr]
      · simp
      · simpa using after
    simp only [moveTo, alarms, List.partition_eq_filter_filter, Function.comp_def]
    rw [due, kept]
    simp

/-- Of two alarms the later one goes off with the first one only if it is due then. -/
theorem moveTo_two {agenda : Agenda State Result} {first second : Alarm}
    (alarms : agenda.alarms = [first, second]) (ordered : first.due ≤ second.due) :
    agenda.nextDue? = some first.due ∧
      agenda.moveTo first.due =
        if second.due ≤ first.due then
          { agenda with
            now := first.due, alarms := [], queue := agenda.queue ++ [first.turn, second.turn] }
        else
          { agenda with
            now := first.due, alarms := [second], queue := agenda.queue ++ [first.turn] } := by
  constructor
  · rw [nextDue?, alarms, List.min?_eq_some_iff]
    simpa using ordered
  · by_cases together : second.due ≤ first.due
    · have sorted : [first, second].mergeSort (fun left right => left.due ≤ right.due) =
          [first, second] := List.mergeSort_of_pairwise (by simpa using ordered)
      simp [moveTo, alarms, List.partition_eq_filter_filter, together, sorted]
    · simp [moveTo, alarms, List.partition_eq_filter_filter, together]

namespace Reaches

variable {before middle after : Agenda State Result}

/-- An agenda is reached from itself. -/
theorem refl (agenda : Agenda State Result) : agenda.Reaches agenda := ⟨0, rfl⟩

/-- What is reached from a reached agenda is reached. -/
theorem trans (first : before.Reaches middle) (second : middle.Reaches after) :
    before.Reaches after := by
  obtain ⟨turns, rfl⟩ := first
  obtain ⟨more, rfl⟩ := second
  exact ⟨turns + more, runWithin_add none turns more before⟩

/-- The agenda after the first turn in the queue is reached. -/
theorem take {turn : Turn} {rest : List Turn} (queue : before.queue = turn :: rest) :
    before.Reaches ({ before with queue := rest }.take turn) :=
  ⟨1, by simp only [runWithin, queue]⟩

/-- The agenda at the next moment for which something is due is reached from an empty queue. -/
theorem moveTo {moment : Moment} (queue : before.queue = [])
    (due : before.nextDue? = some moment) : before.Reaches (before.moveTo moment) :=
  ⟨1, by simp only [runWithin, queue, due]; rfl⟩

variable {task : TaskId} {next : Wake → Process State Result} {rest : List Turn}
  {watchers : List (TaskId × Nat)}

/-- A task in the queue goes on. -/
theorem resume {isInterrupted : Bool} (queue : before.queue = .task task :: rest)
    (known : before.tasks[task]? = some ⟨.queued next isInterrupted, watchers⟩) :
    before.Reaches (carryOn task (next (if isInterrupted then .interrupted else .resumed))
      { before with queue := rest }) := by
  have status : ({ before with queue := rest } : Agenda State Result).statusOf task =
      .queued next isInterrupted := statusOf_eq known
  have goes := take queue
  simp only [Agenda.take, status] at goes
  exact goes

/-- A task that was interrupted in the queue carries on as an interrupted one. -/
theorem resume_interrupted (queue : before.queue = .task task :: rest)
    (known : before.tasks[task]? = some ⟨.queued next true, watchers⟩) :
    before.Reaches (carryOn task (next .interrupted) { before with queue := rest }) :=
  resume queue known

/-- A task whose wait is over is put in the queue. -/
theorem wake {wait : Nat} (queue : before.queue = .wake task wait :: rest)
    (known : before.tasks[task]? = some ⟨.waiting next wait, watchers⟩) :
    before.Reaches { before.setStatus task (.queued next false) with
      queue := rest ++ [.task task] } := by
  have status : ({ before with queue := rest } : Agenda State Result).statusOf task =
      .waiting next wait := statusOf_eq known
  have goes := take queue
  simp only [Agenda.take, Agenda.wake, status, ↓reduceIte] at goes
  exact goes

/-- A task whose wait is over goes on if nothing else is in the queue. -/
theorem rouse {wait : Nat} (queue : before.queue = [.wake task wait])
    (known : before.tasks[task]? = some ⟨.waiting next wait, watchers⟩) :
    before.Reaches (carryOn task (next .resumed)
      { before.setStatus task (.queued next false) with queue := [] }) := by
  have found : (before.setStatus task (.queued next false)).tasks[task]? =
      some ⟨.queued next false, watchers⟩ := getElem?_setStatus_self known _
  have woken := wake queue known
  rw [List.nil_append] at woken
  refine trans woken ?_
  exact @resume _ _ { before.setStatus task (.queued next false) with queue := [.task task] }
    task next [] watchers false rfl found

/-- A task that sleeps goes on at its time if nothing else is in the queue or due by then. -/
theorem elapse {wait : Nat} {due : Moment} {later : List Alarm} (queue : before.queue = [])
    (alarms : before.alarms = later ++ [⟨due, .wake task wait⟩])
    (after : ∀ alarm ∈ later, due < alarm.due)
    (known : before.tasks[task]? = some ⟨.waiting next wait, watchers⟩) :
    before.Reaches (carryOn task (next .resumed)
      { before.setStatus task (.queued next false) with
        queue := [], now := due, alarms := later }) := by
  obtain ⟨dueEq, moved⟩ := moveTo_first alarms after
  have moves := moveTo queue dueEq
  rw [moved, queue, List.nil_append] at moves
  exact trans moves (rouse rfl known)

/-- A deadline that passes interrupts the wait of its task. -/
theorem passDeadline {deadline : DeadlineId} {wait : Nat} {passed : Bool}
    (queue : before.queue = .deadline deadline :: rest)
    (set : before.deadlines[deadline]? = some ⟨task, true, passed⟩)
    (known : before.tasks[task]? = some ⟨.waiting next wait, watchers⟩)
    (elsewhere : ∀ alarm ∈ before.alarms, alarm.turn ≠ .wake task wait) :
    before.Reaches { before.setStatus task (.queued next true) with
      queue := rest ++ [.task task]
      deadlines := before.deadlines.setIfInBounds deadline ⟨task, false, true⟩ } := by
  have status (deadlines : Array Deadline) :
      ({ before with queue := rest, deadlines } : Agenda State Result).statusOf task =
        .waiting next wait := statusOf_eq known
  have kept : before.alarms.filter (·.turn ≠ .wake task wait) = before.alarms := by
    rw [List.filter_eq_self]
    exact fun alarm member => decide_eq_true (elsewhere alarm member)
  have goes := take queue
  simp only [Agenda.take, Agenda.passDeadline, set, Agenda.interrupt, status] at goes
  simp only [Agenda.setStatus, enqueue, dropAlarms] at goes ⊢
  rwa [kept] at goes

/-- A task goes on if a deadline interrupts its wait. -/
theorem interrupted {deadline : DeadlineId} {wait : Nat} {passed : Bool}
    (queue : before.queue = [.deadline deadline])
    (set : before.deadlines[deadline]? = some ⟨task, true, passed⟩)
    (known : before.tasks[task]? = some ⟨.waiting next wait, watchers⟩)
    (elsewhere : ∀ alarm ∈ before.alarms, alarm.turn ≠ .wake task wait) :
    before.Reaches (carryOn task (next .interrupted)
      { before.setStatus task (.queued next true) with
        queue := []
        deadlines := before.deadlines.setIfInBounds deadline ⟨task, false, true⟩ }) := by
  refine .trans (passDeadline queue set known elsewhere) ?_
  exact @resume_interrupted _ _ { before.setStatus task (.queued next true) with
    queue := [.task task]
    deadlines := _ } task next [] watchers rfl (getElem?_setStatus_self known _)

/-- So it does if the wait of another task ends at the same moment; this one goes on afterwards. -/
theorem interrupted_beside {deadline : DeadlineId} {wait wait' : Nat} {passed : Bool}
    {other : TaskId} {left : Wake → Process State Result} {watchers' : List (TaskId × Nat)}
    (queue : before.queue = [.deadline deadline, .wake other wait'])
    (alarms : before.alarms = [])
    (set : before.deadlines[deadline]? = some ⟨task, true, passed⟩)
    (known : before.tasks[task]? = some ⟨.waiting next wait, watchers⟩)
    (known' : before.tasks[other]? = some ⟨.waiting left wait', watchers'⟩) (apart : other ≠ task) :
    before.Reaches (carryOn task (next .interrupted)
      { (before.setStatus task (.queued next true)).setStatus other (.queued left false) with
        queue := [.task other]
        deadlines := before.deadlines.setIfInBounds deadline ⟨task, false, true⟩ }) := by
  let told := before.setStatus task (.queued next true)
  have own : told.tasks[task]? = some ⟨.queued next true, watchers⟩ :=
    getElem?_setStatus_self known _
  have unchanged : told.tasks[other]? = some ⟨.waiting left wait', watchers'⟩ :=
    (before.getElem?_setStatus_of_ne apart _).trans known'
  refine .trans (passDeadline queue set known (alarms ▸ List.forall_mem_nil _)) ?_
  refine .trans (@wake _ _ { told with queue := _, deadlines := _ } other left _ _ _ rfl
    unchanged) ?_
  exact @resume_interrupted _ _ { told.setStatus other (.queued left false) with
    queue := _
    deadlines := _ } task next [.task other] watchers rfl
    ((told.getElem?_setStatus_of_ne apart.symm _).trans own)

/-- Who waits for something else is not woken. -/
theorem wake_stale {wait : Nat} (queue : before.queue = .wake task wait :: rest)
    (elsewhere : ∀ next, before.statusOf task ≠ .waiting next wait) :
    before.Reaches { before with queue := rest } := by
  have goes := take queue
  have stays : ({ before with queue := rest } : Agenda State Result).take (.wake task wait) =
      { before with queue := rest } := by
    simp only [Agenda.take, Agenda.wake]
    split
    · next next current status =>
        refine if_neg fun same => elsewhere next ?_
        rw [← same]
        exact status
    · rfl
  rwa [stays] at goes

/-- Wakes for waits that are over do nothing. -/
theorem wakes_stale {stale : List (TaskId × Nat)}
    (queue : before.queue = stale.map (fun watcher => .wake watcher.1 watcher.2) ++ rest)
    (elsewhere : ∀ watcher ∈ stale, ∀ next, before.statusOf watcher.1 ≠ .waiting next watcher.2) :
    before.Reaches { before with queue := rest } := by
  induction stale generalizing before with
  | nil =>
      have same : before.queue = rest := queue
      rw [← same]
      exact refl before
  | cons first stale ih =>
      rw [List.forall_mem_cons] at elsewhere
      refine trans (wake_stale queue elsewhere.1) ?_
      exact @ih { before with queue := _ } rfl elsewhere.2

end Reaches

end Agenda

end ModelAssist
