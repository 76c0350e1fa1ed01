import ModelAssist.Proofs.Schedule.History

/-!
# Tickets

What a schedule begins, it begins under tickets that it gives out in their order, and what it
cancels stays cancelled (`Schedule.issues_handle`).  It has quiet periods interrupted whenever they
are of no use any more, but validations only if it has cancelled them
(`Schedule.Course.Sound.cancelled_of_interrupt`).
-/

namespace ModelAssist

open Schedule (Job)

/-- The ticket of the work that a command begins. -/
def ScheduleCommand.begun? : ScheduleCommand → Option Ticket
  | .awaitQuiet ticket _ _ | .awaitDependentsQuiet ticket _ | .validate ticket _ _ => some ticket
  | _ => none

namespace Schedule

/-- Holds of changes of a schedule whose commands begin work under the next tickets, and which
cancel validations for good. -/
structure Issues (schedule : Schedule) (change : Schedule × List ScheduleCommand) : Prop where
  begins : ∃ count, change.2.filterMap ScheduleCommand.begun? =
      List.range' schedule.nextTicket count ∧
    change.1.nextTicket = schedule.nextTicket + count
  cancelled : schedule.cancelled ⊆ change.1.cancelled

namespace Issues

variable {schedule : Schedule} {change : Schedule × List ScheduleCommand}

/-- Commands without tickets begin nothing. -/
theorem of_none (nothing : ∀ command ∈ change.2, command.begun? = none)
    (next : change.1.nextTicket = schedule.nextTicket)
    (cancelled : schedule.cancelled ⊆ change.1.cancelled) : schedule.Issues change :=
  ⟨⟨0, List.filterMap_eq_nil_iff.mpr nothing, next⟩, cancelled⟩

/-- The last command begins work under the next ticket. -/
theorem of_last {commands : List ScheduleCommand} {command : ScheduleCommand} {after : Schedule}
    (nothing : ∀ command ∈ commands, command.begun? = none)
    (begins : command.begun? = some schedule.nextTicket)
    (next : after.nextTicket = schedule.nextTicket + 1)
    (cancelled : schedule.cancelled ⊆ after.cancelled) :
    schedule.Issues (after, commands ++ [command]) := by
  refine ⟨⟨1, ?_, next⟩, cancelled⟩
  rw [List.filterMap_append, List.filterMap_eq_nil_iff.mpr nothing,
    List.filterMap_cons_some begins]
  rfl

/-- Changes that follow each other issue the tickets of both. -/
theorem append {further : Schedule × List ScheduleCommand} (first : schedule.Issues change)
    (second : change.1.Issues further) : schedule.Issues (further.1, change.2 ++ further.2) := by
  obtain ⟨⟨count, begins, next⟩, cancelled⟩ := first
  obtain ⟨⟨count', begins', next'⟩, cancelled'⟩ := second
  refine ⟨⟨count + count', ?_, ?_⟩, List.Subset.trans cancelled cancelled'⟩
  · rw [List.filterMap_append, begins, begins', next, List.range'_append_1]
  · rw [next', next, Nat.add_assoc]

end Issues

private theorem begun?_interrupts {tickets : List Ticket} :
    ∀ command ∈ tickets.map ScheduleCommand.interrupt, command.begun? = none := by
  intro command member
  obtain ⟨ticket, -, rfl⟩ := List.mem_map.mp member
  rfl

private theorem begun?_cancels {tickets : List Ticket} {reason : String} :
    ∀ command ∈ tickets.map (ScheduleCommand.cancel · reason), command.begun? = none := by
  intro command member
  obtain ⟨ticket, -, rfl⟩ := List.mem_map.mp member
  rfl

/-- The start of a validation cancels the one before and begins a new one. -/
theorem issues_start (around : Surroundings) (schedule : Schedule) (uri : String) :
    schedule.Issues (schedule.start around uri) := by
  unfold start
  split
  · exact .of_none nofun rfl (List.Subset.refl _)
  · exact .of_last begun?_cancels rfl rfl (List.subset_append_left _ _)

/-- Starts of several validations begin them in their order. -/
theorem issues_startAll (around : Surroundings) (schedule : Schedule) (uris : List String) :
    schedule.Issues (startAll around schedule uris) := by
  induction uris generalizing schedule with
  | nil => exact .of_none nofun rfl (List.Subset.refl _)
  | cons uri rest ih =>
      rw [startAll_cons]
      exact (issues_start around schedule uri).append (ih _)

/-- The end of a validation only has something told. -/
theorem begun?_finish {around : Surroundings} {schedule : Schedule} {ticket : Ticket}
    {uri : String} {version : Int} {ending : ValidationEnd} {command : ScheduleCommand}
    (member : command ∈ (schedule.finish around ticket uri version ending).2) :
    command.begun? = none ∧ ∀ ticket, command ≠ .interrupt ticket := by
  obtain ⟨warned, warnings, shown, finishEq, shows⟩ :=
    finish_cases around schedule ticket uri version ending
  rw [finishEq] at member
  rcases List.mem_append.mp member with warns | publishes
  · obtain ⟨message, -, rfl⟩ := List.mem_map.mp warns
    exact ⟨rfl, nofun⟩
  · rcases shows with rfl | ⟨found, rfl, -⟩
    · cases publishes
    · rw [List.mem_singleton.mp publishes]
      exact ⟨rfl, nofun⟩

/-- To stop everything begins nothing. -/
theorem begun?_shutdown {schedule : Schedule} {command : ScheduleCommand}
    (member : command ∈ schedule.shutdown.2) : command.begun? = none := by
  rcases List.mem_append.mp member with cancels | interrupts
  · exact begun?_cancels command cancels
  · exact begun?_interrupts command interrupts

/-- **Every event gives out tickets in their order**, and cancellations are final. -/
theorem issues_handle (around : Surroundings) (schedule : Schedule) (event : ScheduleEvent) :
    schedule.Issues (schedule.handle around event) := by
  cases event with
  | schedule uri seconds => exact .of_last begun?_interrupts rfl rfl (List.Subset.refl _)
  | scheduleDependents uri => exact .of_last begun?_interrupts rfl rfl (List.Subset.refl _)
  | quiet ticket uri =>
      obtain ⟨next, cancelled⟩ : (schedule.leaveQuiet ticket uri).nextTicket = schedule.nextTicket ∧
          (schedule.leaveQuiet ticket uri).cancelled = schedule.cancelled := by
        unfold leaveQuiet
        split <;> exact ⟨rfl, rfl⟩
      have issues := issues_start around (schedule.leaveQuiet ticket uri) uri
      exact ⟨next ▸ issues.begins, cancelled ▸ issues.cancelled⟩
  | dependentsQuiet =>
      have issues := issues_startAll around { schedule with changed := [], dependentsTimer := none }
        (affected around schedule.changed)
      exact ⟨issues.begins, issues.cancelled⟩
  | start uri => exact issues_start around schedule uri
  | ended ticket uri version ending =>
      obtain ⟨warned, warnings, shown, finishEq, -⟩ :=
        finish_cases around schedule ticket uri version ending
      refine .of_none (fun command member => (begun?_finish member).1) ?_ ?_
      · rw [handle, finishEq]
        exact leaveRunning_nextTicket schedule ticket uri
      · rw [handle, finishEq]
        exact (leaveRunning_cancelled schedule ticket uri).symm ▸ List.Subset.refl _
  | close uri =>
      refine .of_none (fun command member => ?_) rfl (List.subset_append_left _ _)
      rcases List.mem_append.mp member with stops | publishes
      · rcases List.mem_append.mp stops with interrupts | cancels
        · exact begun?_interrupts command interrupts
        · exact begun?_cancels command cancels
      · rw [List.mem_singleton.mp publishes]
        rfl
  | shutdown =>
      exact .of_none (fun command => begun?_shutdown) rfl (List.subset_append_left _ _)

/-- **Only cancelled validations are interrupted.** -/
theorem Course.Sound.cancelled_of_interrupt {course : Course} (sound : course.Sound)
    {around : Surroundings} {event : ScheduleEvent} {jobs : List Job} (among : jobs ⊆ course.jobs)
    {job : Job} (live : job ∈ Job.obeyAll jobs (course.schedule.handle around event).2)
    (interrupts : .interrupt job.ticket ∈ (course.schedule.handle around event).2)
    (validates : job.isValidation) :
    job.ticket ∈ (course.schedule.handle around event).1.cancelled := by
  obtain ⟨ticket, uri, version, rfl⟩ := Job.exists_eq_of_isValidation validates
  have older : (∀ number other started, .validate number other started ∉
      (course.schedule.handle around event).2) → Job.validation ticket uri version ∈ course.jobs :=
    fun starts => among (Job.validation_mem_of_obeyAll starts live)
  -- What is interrupted otherwise is a quiet period, which has a ticket of its own.
  have apart : ∀ quiet ∈ course.jobs, quiet.ticket = ticket → quiet.isValidation = false →
      Job.validation ticket uri version ∉ course.jobs := by
    intro quiet member same quietly own
    rw [sound.job_eq member own same] at quietly
    cases quietly
  cases event with
  | schedule other seconds =>
      simp only [handle, awaitQuiet, List.mem_append, List.mem_map, Option.mem_toList,
        ScheduleCommand.interrupt.injEq, exists_eq_right, List.mem_singleton, reduceCtorEq,
        or_false] at interrupts
      exact absurd (older (by simp [handle, awaitQuiet]))
        (apart _ ((sound.pending_iff _ _).mp interrupts) rfl rfl)
  | scheduleDependents other =>
      simp only [handle, awaitDependents, List.mem_append, List.mem_map, Option.mem_toList,
        ScheduleCommand.interrupt.injEq, exists_eq_right, List.mem_singleton, reduceCtorEq,
        or_false] at interrupts
      exact absurd (older (by simp [handle, awaitDependents]))
        (apart _ ((sound.timer_iff _).mp interrupts) rfl rfl)
  | close other =>
      simp only [handle, close, List.mem_append, List.mem_map, Option.mem_toList,
        ScheduleCommand.interrupt.injEq, exists_eq_right, List.mem_singleton, reduceCtorEq,
        or_false, and_false, exists_false] at interrupts
      exact absurd (older (by simp [handle, close]))
        (apart _ ((sound.pending_iff _ _).mp interrupts) rfl rfl)
  | shutdown =>
      have own := older (by simp [handle, shutdown])
      change ticket ∈ course.schedule.cancelled ++ course.schedule.running.values
      by_cases cancelled : ticket ∈ course.schedule.cancelled
      · exact List.mem_append_left _ cancelled
      · exact List.mem_append_right _ (OrderedMap.mem_values_of_get?
          ((sound.running_iff uri ticket).mpr ⟨cancelled, version, own⟩))
  | start other => exact (restarts_of_mem_start interrupts).elim
  | quiet number other => exact (restarts_of_mem_start interrupts).elim
  | dependentsQuiet => exact (restarts_of_mem_startAll interrupts).elim
  | ended number other started ending => exact absurd rfl ((begun?_finish interrupts).2 ticket)

end Schedule

end ModelAssist
