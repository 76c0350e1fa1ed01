import ModelAssist.Proofs.Schedule.Staff

/-!
# Turns of the staff

The tasks that serve a schedule keep its agenda staffed: where one lets the schedule know of an
event (`Agenda.Staffs.decide`), where it carries out a command (`Agenda.Staffs.perform`), and so in
every turn (`Agenda.Staffs.take`).  A run of the tasks is then a run of the schedule, whatever turns
they take.
-/

namespace ModelAssist

open Schedule (Job)

variable {State Result Fault Message : Type}

/-- The agenda with another schedule. -/
def Agenda.withSchedule (host : DispatchHost State Result Fault) (agenda : Agenda State Result)
    (schedule : Schedule) : Agenda State Result :=
  { agenda with state := host.set { host.get agenda.state with schedule } agenda.state }

/-- The workers of a schedule work for it still when it has handled an event, after which a job may
have been reported. -/
theorem Dispatch.Manned.handle {dispatch : Dispatch} {jobs left : List Job} {size : Nat}
    (manned : dispatch.Manned jobs [] size)
    (sound : Schedule.Course.Sound ⟨dispatch.schedule, jobs⟩) (among : left ⊆ jobs)
    (around : Surroundings) (event : ScheduleEvent) :
    let change := dispatch.schedule.handle around event
    ({ dispatch with schedule := change.1 } : Dispatch).Manned left change.2 size := by
  intro change
  obtain ⟨count, begins, next⟩ := (Schedule.issues_handle around dispatch.schedule event).begins
  have workers : dispatch.tickets [] = dispatch.workers.map Worker.ticket := List.append_nil _
  have distinct := manned.tickets_nodup
  have older := manned.ticket_lt
  rw [workers] at distinct older
  refine ⟨?_, ?_, manned.tasks_nodup, manned.task_lt,
    fun job live => manned.employed job (among live),
    fun job live interrupts => sound.cancelled_of_interrupt among live interrupts⟩
  · refine List.nodup_append.mpr ⟨distinct, begins ▸ List.nodup_range', ?_⟩
    rintro ticket old _ new rfl
    rw [begins, List.mem_range'_1] at new
    exact absurd (older ticket old) (Nat.not_lt.mpr new.1)
  · intro ticket member
    change ticket < change.1.nextTicket
    rw [next]
    rcases List.mem_append.mp member with old | new
    · exact Nat.lt_add_right count (older ticket old)
    · rw [begins, List.mem_range'_1] at new
      exact new.2

namespace Agenda.Staffs

variable {herald : Herald State Result Fault Message} {errands : TaskId → Errand}
  {history : List Schedule.Happening} {jobs : List Job} {due : List ScheduleCommand}
  {agenda : Agenda State Result} {task : TaskId}

/-- **The schedule handles an event of a busy task**, which has then no job any more. -/
theorem decide (lawful : herald.Lawful)
    (staffs : agenda.Staffs herald (some task) errands history jobs []) {event : ScheduleEvent}
    (tells : Job.Tells (errands task).job event) :
    let change := (herald.get agenda.state).schedule.handle (herald.surroundings agenda.state) event
    ∃ further left, (agenda.withSchedule herald.toDispatchHost change.1).Staffs herald (some task)
      (Function.update errands task (errands task).idle) (history ++ further) left change.2 := by
  intro change
  let around := herald.surroundings agenda.state
  have run : Schedule.Course.Run history ⟨(herald.get agenda.state).schedule, jobs⟩ := staffs.run
  -- Whichever jobs are left, nothing else depends on how the event came about.
  have react : ∀ left, left ⊆ jobs →
      (∀ another job, (Function.update errands task (errands task).idle another).job = some job ↔
        job ∈ left ∧ (herald.get agenda.state).Employs another job) →
      Schedule.Course.Step around ⟨(herald.get agenda.state).schedule, jobs⟩ event
        ⟨change.1, Job.obeyAll left change.2⟩ →
      (agenda.withSchedule herald.toDispatchHost change.1).Staffs herald (some task)
        (Function.update errands task (errands task).idle)
        (history ++ Schedule.recorded around (herald.get agenda.state).schedule event) left
        change.2 := by
    intro left among leaves step
    have issues := Schedule.issues_handle around (herald.get agenda.state).schedule event
    have get : herald.get (agenda.withSchedule herald.toDispatchHost change.1).state =
        { herald.get agenda.state with schedule := change.1 } := lawful.get_set _ _
    refine staffs.reassign rfl rfl (by rw [get]) (get ▸ issues.cancelled) ?_ ?_ ?_ leaves
      (staffs.own_lt task) Errand.isSteady_idle
    · rw [get]
      exact run.step step
    · have before := staffs.told
      rw [List.flatMap_nil, List.append_nil] at before
      rw [List.filterMap_append, List.flatMap_append, ← before,
        Schedule.filterMap_command?_recorded]
      exact congrArg (· ++ _) (lawful.told_set _ _)
    · rw [get]
      exact staffs.manned.handle run.sound among around event
  generalize own : (errands task).job = held at tells
  cases tells with
  | request asked =>
      refine ⟨_, jobs, react jobs (List.Subset.refl _) ?_ (.request _ asked)⟩
      exact staffs.job_iff_update own.symm
  | @report job _ reports =>
      have live := ((staffs.job_iff task job).mp own).1
      exact ⟨_, jobs.erase job, react _ List.erase_subset
        (staffs.job_iff_erase run.sound.nodup_jobs own) (.report _ live reports)⟩

/-- Work that a command begins is taken up by a task of its own. -/
theorem employ (lawful : herald.Lawful) {command : ScheduleCommand} {job : Job}
    {token : Option TokenId}
    (staffs : agenda.Staffs herald (some task) errands history jobs (command :: due))
    (begins : command.begun? = some job.ticket) (obeys : Job.obey jobs command = jobs ++ [job])
    (silent : herald.tells command = []) {child : Process State Result}
    (serves : ∀ after, child.Serves herald [] (some job) [] after) (tokens : Array Token) :
    ∃ after, after.Staffs herald (some task)
        (Function.update errands agenda.tasks.size ⟨[], some job, false⟩) history
        (Job.obey jobs command) due ∧
      agenda.tasks.size ≤ after.tasks.size ∧
      (Dispatch.employ herald.toDispatchHost ⟨job.ticket, agenda.tasks.size, token⟩ :
        Act State Result Fault Unit).Yields task ({ agenda with tokens }.start child) () after := by
  let workers := (herald.get agenda.state).workers ++ [⟨job.ticket, agenda.tasks.size, token⟩]
  let state := herald.set { herald.get agenda.state with workers } agenda.state
  refine ⟨{ { agenda with tokens }.start child with state }, ?_, ?_, fun next => rfl⟩
  · rw [obeys]
    exact staffs.hire begins obeys silent serves rfl rfl (lawful.told_set _ _) (lawful.get_set _ _)
  · change agenda.tasks.size ≤ (agenda.tasks.push _).size
    rw [Array.size_push]
    exact Nat.le_succ _

/-- **Carrying out a command** leads to the jobs that have obeyed it. -/
theorem perform (lawful : herald.Lawful) {command : ScheduleCommand}
    (staffs : agenda.Staffs herald (some task) errands history jobs (command :: due))
    (idle : (errands task).job = none) (known : task < agenda.tasks.size) :
    ∃ after errands', after.Staffs herald (some task) errands' history (Job.obey jobs command) due ∧
      errands' task = errands task ∧ agenda.tasks.size ≤ after.tasks.size ∧
      (Dispatch.perform herald.toDispatchHost (Dispatch.spawn herald.toDispatchHost)
        command).Yields task agenda () after := by
  have looks : ∀ ticket, (Dispatch.lookUp herald.toDispatchHost ticket :
      Act State Result Fault _).Yields task agenda
        ((herald.get agenda.state).worker? ticket) agenda := fun ticket next => rfl
  have unchanged : ∀ job, Function.update errands agenda.tasks.size ⟨[], some job, false⟩ task =
      errands task := fun job => Function.update_of_ne (Nat.ne_of_lt known) _ _
  cases command with
  | publish uri found version =>
      obtain ⟨state, get, told, yields⟩ := lawful.publish uri found version task agenda
      exact ⟨{ agenda with state }, errands, staffs.skip rfl rfl get told rfl rfl, rfl,
        Nat.le_refl _, yields⟩
  | warn message =>
      obtain ⟨state, get, told, yields⟩ := lawful.warn message task agenda
      exact ⟨{ agenda with state }, errands, staffs.skip rfl rfl get told rfl rfl, rfl,
        Nat.le_refl _, yields⟩
  | cancel ticket reason =>
      have skipped : agenda.Staffs herald (some task) errands history jobs due :=
        staffs.skip rfl rfl rfl (List.append_nil _).symm rfl rfl
      cases found : (herald.get agenda.state).worker? ticket with
      | none =>
          refine ⟨agenda, errands, skipped, rfl, Nat.le_refl _, .bind (looks ticket) ?_⟩
          rw [found]
          exact .pure ()
      | some worker =>
          obtain ⟨number, task', token⟩ := worker
          cases token with
          | none =>
              refine ⟨agenda, errands, skipped, rfl, Nat.le_refl _, .bind (looks ticket) ?_⟩
              rw [found]
              exact .pure ()
          | some token =>
              have roused := agenda.rouses_cancel token reason
              refine ⟨agenda.cancel token reason, errands, skipped.rouse roused, rfl,
                Nat.le_of_eq roused.size.symm, .bind (looks ticket) ?_⟩
              rw [found]
              exact fun next => rfl
  | interrupt ticket =>
      cases found : (herald.get agenda.state).worker? ticket with
      | none =>
          refine ⟨agenda, errands, staffs.unmanned ?_, rfl, Nat.le_refl _,
            .bind (looks ticket) ?_⟩
          · simpa [Dispatch.worker?] using found
          · rw [found]
            exact .pure ()
      | some worker =>
          have member := List.mem_of_find?_eq_some found
          obtain rfl : worker.ticket = ticket := by simpa using List.find?_some found
          refine ⟨_, _, staffs.dismiss member, ?_,
            Nat.le_of_eq (agenda.size_interrupt worker.task).symm, .bind (looks worker.ticket) ?_⟩
          · by_cases same : task = worker.task
            · rw [same, Function.update_self, ← same]
              exact Errand.interrupted_eq (by rw [idle]; rfl)
            · exact Function.update_of_ne same _ _
          · rw [found]
            exact fun next => rfl
  | awaitQuiet ticket uri seconds =>
      obtain ⟨after, staffed, grown, yields⟩ := staffs.employ lawful rfl rfl rfl
        (fun after => Dispatch.serves_quiet (.quiet ticket uri) rfl seconds) agenda.tokens
      exact ⟨after, _, staffed, unchanged _, grown, .bind (.start _) yields⟩
  | awaitDependentsQuiet ticket seconds =>
      obtain ⟨after, staffed, grown, yields⟩ := staffs.employ lawful rfl rfl rfl
        (fun after => Dispatch.serves_quiet (.dependentsQuiet ticket) rfl seconds) agenda.tokens
      exact ⟨after, _, staffed, unchanged _, grown, .bind (.start _) yields⟩
  | validate ticket uri version =>
      obtain ⟨after, staffed, grown, yields⟩ := staffs.employ lawful rfl rfl rfl
        (fun after => Dispatch.serves_validation lawful ticket uri version agenda.tokens.size)
        (agenda.tokens.push ⟨none, []⟩)
      exact ⟨after, _, staffed, unchanged _, grown, .bind .makeToken (.bind (.start _) yields)⟩

/-- A busy task that waits is left at a wait that suits its errand, or it goes on at once. -/
theorem park {process : Process State Result} {next : Wake → Process State Result}
    (staffs : agenda.Staffs herald (some task) errands history jobs [])
    (known : task < agenda.tasks.size) (waits : process.Waits next)
    (suits : ∀ status : TaskStatus State Result, status.Parks next →
      (errands task).Suits herald (herald.get agenda.state).schedule.cancelled status) :
    Agenda.carryOn task process agenda = Agenda.carryOn task (next .resumed) agenda ∨
      (Agenda.carryOn task process agenda).Staffs herald none errands history jobs [] := by
  refine (waits.carryOn task agenda).imp_right fun stopped => ?_
  obtain ⟨status, parks, rouses⟩ := stopped
  exact (staffs.leave known (suits status parks)).rouse rouses

/-- **A task that serves keeps an agenda staffed** until it waits or ends. -/
theorem carryOn (lawful : herald.Lawful) {own : List TaskId} {job : Option Job}
    {process : Process State Result} {state : State}
    (serves : process.Serves herald own job due state) :
    ∀ {agenda : Agenda State Result} {errands : TaskId → Errand}
      {history : List Schedule.Happening} {jobs : List Job}, agenda.state = state →
      agenda.Staffs herald (some task) errands history jobs due → task < agenda.tasks.size →
      errands task = ⟨own, job, true⟩ →
      ∃ errands' further jobs', (Agenda.carryOn task process agenda).Staffs herald none errands'
        (history ++ further) jobs' [] := by
  -- On how the process serves; `decide` and `perform` are what makes a difference to the jobs.
  induction serves with
  | finish result =>
      rintro agenda errands history jobs rfl staffs known errand
      refine ⟨errands, [], jobs, ?_⟩
      rw [List.append_nil]
      have suits : (errands task).Suits herald (herald.get agenda.state).schedule.cancelled
          (.ended result : TaskStatus State Result) := congrArg Errand.job errand
      exact (staffs.leave known suits).congr ⟨rfl, rfl⟩ rfl rfl
  | look later ih =>
      rintro agenda errands history jobs rfl staffs known errand
      exact ih rfl staffs known errand
  | change alike later ih =>
      rintro agenda errands history jobs rfl staffs known errand
      exact ih rfl (staffs.congr alike rfl rfl) known errand
  | clock later ih =>
      rintro agenda errands history jobs rfl staffs known errand
      exact ih agenda.now rfl staffs known errand
  | @wait own job state process next waits validates later ih =>
      rintro agenda errands history jobs rfl staffs known errand
      have suits : ∀ status : TaskStatus State Result, status.Parks next →
          (errands task).Suits herald (herald.get agenda.state).schedule.cancelled status := by
        intro status parks
        rw [errand]
        refine Errand.suits_of_parks parks (later .resumed) ?_
        rw [if_pos (show Errand.isSteady ⟨_, _, true⟩ from validates)]
        exact later .interrupted
      rcases staffs.park known waits suits with onward | parked
      · rw [onward]
        exact ih .resumed _ rfl staffs known errand
      · exact ⟨errands, [], jobs, by rwa [List.append_nil]⟩
  | @doze own job state process next waits quiet drops later ih =>
      rintro agenda errands history jobs rfl staffs known errand
      have suits : ∀ status : TaskStatus State Result, status.Parks next →
          (errands task).Suits herald (herald.get agenda.state).schedule.cancelled status := by
        intro status parks
        rw [errand]
        refine Errand.suits_of_parks parks later ?_
        rw [if_neg (by simp [Errand.isSteady, quiet])]
        exact drops
      rcases staffs.park known waits suits with onward | parked
      · rw [onward]
        exact ih _ rfl staffs known errand
      · exact ⟨errands, [], jobs, by rwa [List.append_nil]⟩
  | @start own job due state child next begins later ihChild ih =>
      rintro agenda errands history jobs rfl staffs known errand
      have below : agenda.tasks.size < (agenda.start child).tasks.size := by
        rw [Agenda.start, Array.size_push]
        exact Nat.lt_succ_self _
      have own := (staffs.start begins).own below
        fun worker member => Nat.ne_of_lt (staffs.manned.task_lt worker member)
      refine ih agenda.tasks.size rfl own ?_ ?_
      · rw [Agenda.start, Array.size_push]
        exact Nat.lt_succ_of_lt known
      · rw [Function.update_self, Function.update_of_ne (Nat.ne_of_lt known), errand]
  | @interrupt own job due state other next mine later ih =>
      rintro agenda errands history jobs rfl staffs known errand
      have idle := staffs.job_eq_none (staffs.own_lt task other (errand ▸ mine)).2
      exact ih (agenda.state_interrupt other) (staffs.interrupt (.inr idle))
        ((agenda.size_interrupt other).symm ▸ known) errand
  | ended later ih =>
      rintro agenda errands history jobs rfl staffs known errand
      simp only [Agenda.carryOn]
      split
      · exact ih _ rfl staffs known errand
      · exact ih _ rfl staffs known errand
  | cancelled later ih =>
      rintro agenda errands history jobs rfl staffs known errand
      exact ih _ rfl staffs known errand
  | setDeadline validates later ih =>
      rintro agenda errands history jobs rfl staffs known errand
      refine ih _ rfl (staffs.change ⟨rfl, rfl⟩ rfl (fun _ _ suits => suits) ?_) known errand
      intro deadline set
      rcases Array.mem_push.mp set with old | rfl
      · exact staffs.steady deadline old
      · exact ⟨known, by rw [errand]; exact validates⟩
  | clearDeadline later ih =>
      rintro agenda errands history jobs rfl staffs known errand
      simp only [Agenda.carryOn]
      split
      · next owner isSet passed found =>
          refine ih passed rfl (staffs.change ⟨rfl, rfl⟩ rfl (fun _ _ suits => suits) ?_) known
            errand
          intro deadline set
          rcases Array.mem_or_eq_of_mem_setIfInBounds set with old | rfl
          · exact staffs.steady deadline old
          · exact staffs.steady ⟨owner, isSet, passed⟩ (Array.mem_of_getElem? found)
      · exact ih false rfl staffs known errand
  | decide tells later ih =>
      rintro agenda errands history jobs rfl staffs known errand
      obtain ⟨further, left, decided⟩ := staffs.decide lawful (by rwa [errand])
      obtain ⟨errands', further', jobs', staffed⟩ := ih _ rfl decided known
        (by rw [Function.update_self, errand]; rfl)
      exact ⟨errands', further ++ further', jobs', List.append_assoc _ _ _ ▸ staffed⟩
  | @perform own due state command next later ih =>
      rintro agenda errands history jobs rfl staffs known errand
      obtain ⟨after, errands', performed, same, grown, yields⟩ :=
        staffs.perform lawful (congrArg Errand.job errand) known
      rw [yields next]
      exact ih after.state rfl performed (Nat.lt_of_lt_of_le known grown) (same.trans errand)

/-- **Every turn keeps an agenda staffed.** -/
theorem take (lawful : herald.Lawful) (staffs : agenda.Staffs herald none errands history jobs [])
    (turn : Turn) :
    ∃ errands' further jobs', (agenda.take turn).Staffs herald none errands' (history ++ further)
      jobs' [] := by
  have stays : ∀ {other : Agenda State Result}, other.Staffs herald none errands history jobs [] →
      ∃ errands' further jobs', other.Staffs herald none errands' (history ++ further) jobs' [] :=
    fun staffed => ⟨errands, [], jobs, by rwa [List.append_nil]⟩
  cases turn with
  | task task =>
      cases status : agenda.statusOf task with
      | waiting next wait =>
          simp only [Agenda.take, status]
          exact stays staffs
      | ended result =>
          simp only [Agenda.take, status]
          exact stays staffs
      | queued next isInterrupted =>
          have known : task < agenda.tasks.size :=
            lt_size_of_plan (show agenda.plan task = some next by rw [plan, status]; rfl)
          have suits := staffs.suits task (Option.some_ne_none task).symm
          rw [status] at suits
          have begun := (staffs.enter task).begin
          have errand : Function.update errands task { errands task with hasBegun := true } task =
              ⟨(errands task).own, (errands task).job, true⟩ := Function.update_self _ _ _
          simp only [Agenda.take, status]
          cases isInterrupted with
          | false => exact carryOn lawful (suits.1 agenda.state) rfl begun known errand
          | true =>
              rcases suits.2 with serves | ⟨drops, lost⟩
              · exact carryOn lawful (serves agenda.state) rfl begun known errand
              · -- The task was interrupted before it began, and ends without a report.
                rw [if_pos rfl, drops]
                cases own : (errands task).job with
                | none =>
                    exact carryOn lawful (.finish none) rfl begun known (by rw [errand, own])
                | some job =>
                    have validates : job.isValidation := by simpa [own] using suits.1
                    have dropped := begun.lose (by rw [errand, own]) validates (lost job own)
                    exact carryOn lawful (.finish none) rfl dropped known
                      (by rw [Function.update_self, errand]; rfl)
  | wake task wait => exact stays (staffs.rouse (agenda.rouses_wake task wait))
  | cancel token reason => exact stays (staffs.rouse (agenda.rouses_cancel token reason))
  | deadline deadline =>
      simp only [Agenda.take, passDeadline]
      split
      · next owner passed found =>
          have steady := staffs.steady ⟨owner, true, passed⟩ (Array.mem_of_getElem? found)
          refine stays (interrupt (staffs.change ⟨rfl, rfl⟩ rfl (fun _ _ suits => suits) ?_)
            (.inl steady.2))
          intro other set
          rcases Array.mem_or_eq_of_mem_setIfInBounds set with old | rfl
          · exact staffs.steady other old
          · exact steady
      · exact stays staffs

end Agenda.Staffs

end ModelAssist
