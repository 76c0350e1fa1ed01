import ModelAssist.Proofs.Schedule.Course

/-!
# Starts of validations

Which validations begin when some documents are to be validated, and what that leaves alone: the
quiet periods, the changed documents and the shared period.  `mem_affected` says which documents the
end of the shared period asks for.
-/

namespace ModelAssist

namespace Schedule

/-- The part of a schedule that plans validations: its quiet periods, the changed documents and the
shared period. -/
def plans (schedule : Schedule) :
    OrderedMap String Ticket × List String × Option Ticket :=
  (schedule.pending, schedule.changed, schedule.dependentsTimer)

@[simp] theorem plans_start (around : Surroundings) (schedule : Schedule) (uri : String) :
    (schedule.start around uri).1.plans = schedule.plans := by
  unfold start
  split <;> rfl

@[simp] theorem plans_startAll (around : Surroundings) (schedule : Schedule) (uris : List String) :
    (startAll around schedule uris).1.plans = schedule.plans := by
  induction uris generalizing schedule with
  | nil => rfl
  | cons uri rest ih => rw [startAll_cons, ih, plans_start]

@[simp] theorem plans_finish (around : Surroundings) (schedule : Schedule) (ticket : Ticket)
    (uri : String) (version : Int) (ending : ValidationEnd) :
    (schedule.finish around ticket uri version ending).1.plans = schedule.plans := by
  obtain ⟨warned, warnings, shown, finishEq, -⟩ :=
    finish_cases around schedule ticket uri version ending
  rw [finishEq]
  change (schedule.leaveRunning ticket uri).plans = schedule.plans
  unfold leaveRunning
  split <;> rfl

/-- The documents that the end of the shared period asks for are those that import a changed one and
did not change themselves. -/
theorem mem_affected {around : Surroundings} {changed : List String} {uri : String} :
    uri ∈ affected around changed ↔
      (∃ other ∈ changed, uri ∈ around.dependentsOf other) ∧ uri ∉ changed := by
  have collected : ∀ (found kept : List String),
      uri ∈ found.foldl
          (fun kept uri => if kept.contains uri || changed.contains uri then kept
            else kept ++ [uri]) kept ↔
        uri ∈ kept ∨ uri ∈ found ∧ uri ∉ changed := by
    intro found
    induction found with
    | nil => simp
    | cons first rest ih =>
        intro kept
        rw [List.foldl_cons, ih]
        by_cases known : (kept.contains first || changed.contains first) = true
        · rw [if_pos known]
          simp only [Bool.or_eq_true, List.contains_iff_mem] at known
          constructor
          · rintro (old | ⟨later, unchanged⟩)
            · exact Or.inl old
            · exact Or.inr ⟨List.mem_cons_of_mem _ later, unchanged⟩
          · rintro (old | ⟨member, unchanged⟩)
            · exact Or.inl old
            · rcases List.mem_cons.mp member with rfl | later
              · exact Or.inl (known.resolve_right unchanged)
              · exact Or.inr ⟨later, unchanged⟩
        · rw [if_neg known]
          simp only [Bool.or_eq_true, List.contains_iff_mem, not_or] at known
          rw [List.mem_append, List.mem_singleton, List.mem_cons]
          constructor
          · rintro ((old | rfl) | ⟨later, unchanged⟩)
            · exact Or.inl old
            · exact Or.inr ⟨Or.inl rfl, known.2⟩
            · exact Or.inr ⟨Or.inr later, unchanged⟩
          · rintro (old | ⟨rfl | later, unchanged⟩)
            · exact Or.inl (Or.inl old)
            · exact Or.inl (Or.inr rfl)
            · exact Or.inr ⟨later, unchanged⟩
  rw [affected, List.mem_mergeSort, collected]
  simp [List.mem_flatMap]

/-- The next number only grows. -/
theorem nextTicket_le_start (around : Surroundings) (schedule : Schedule) (uri : String) :
    schedule.nextTicket ≤ (schedule.start around uri).1.nextTicket := by
  unfold start
  split
  · exact Nat.le_refl _
  · exact Nat.le_succ _

namespace Job

/-- A validation that was started has still to report, whatever is done to the others. -/
theorem validation_mem_obeyAll {jobs : List Job} (commands : List ScheduleCommand)
    {ticket : Ticket} {uri : String} {version : Int}
    (live : validation ticket uri version ∈ jobs) :
    validation ticket uri version ∈ obeyAll jobs commands := by
  induction commands generalizing jobs with
  | nil => exact live
  | cons command rest ih =>
      apply ih
      cases command with
      | interrupt other => simpa [obey, isValidation] using live
      | awaitQuiet _ _ _ => exact List.mem_append_left _ live
      | awaitDependentsQuiet _ _ => exact List.mem_append_left _ live
      | validate _ _ _ => exact List.mem_append_left _ live
      | cancel _ _ => exact live
      | publish _ _ _ => exact live
      | warn _ => exact live

/-- After a start, a live validation of another document was live before. -/
theorem validation_mem_start {around : Surroundings} {schedule : Schedule} {uri : String}
    {jobs : List Job} {ticket : Ticket} {other : String} {version : Int}
    (live : validation ticket other version ∈ obeyAll jobs (schedule.start around uri).2) :
    validation ticket other version ∈ jobs ∨ other = uri := by
  unfold start at live
  split at live
  · exact Or.inl live
  · rw [obeyAll_append, obeyAll_cancel] at live
    rcases List.mem_append.mp live with old | new
    · exact Or.inl old
    · exact Or.inr (Job.validation.inj (List.mem_singleton.mp new)).2.1

/-- A start begins a validation of its document if that is open. -/
theorem exists_validation_start {around : Surroundings} (schedule : Schedule) {uri : String}
    (jobs : List Job) (opened : (around.versionOf uri).isSome) :
    ∃ version, validation schedule.nextTicket uri version ∈
      obeyAll jobs (schedule.start around uri).2 := by
  obtain ⟨version, current⟩ := Option.isSome_iff_exists.mp opened
  refine ⟨version, ?_⟩
  simp [start, current, obeyAll_append, obey]

/-- Starts begin at most validations of their documents. -/
theorem validation_mem_startAll {around : Surroundings} {schedule : Schedule} {uris : List String}
    {jobs : List Job} {ticket : Ticket} {other : String} {version : Int}
    (live : validation ticket other version ∈ obeyAll jobs (startAll around schedule uris).2) :
    validation ticket other version ∈ jobs ∨ other ∈ uris := by
  induction uris generalizing schedule jobs with
  | nil => exact Or.inl live
  | cons uri rest ih =>
      rw [startAll_cons, obeyAll_append] at live
      rcases ih live with old | later
      · rcases validation_mem_start old with older | rfl
        · exact Or.inl older
        · exact Or.inr List.mem_cons_self
      · exact Or.inr (List.mem_cons_of_mem _ later)

/-- Starts begin validations of those of their documents that are open, with new numbers. -/
theorem exists_validation_startAll {around : Surroundings} (schedule : Schedule)
    {uris : List String} (jobs : List Job) {uri : String} (member : uri ∈ uris)
    (opened : (around.versionOf uri).isSome) :
    ∃ ticket version, schedule.nextTicket ≤ ticket ∧
      validation ticket uri version ∈ obeyAll jobs (startAll around schedule uris).2 := by
  induction uris generalizing schedule jobs with
  | nil => cases member
  | cons first rest ih =>
      rw [startAll_cons, obeyAll_append]
      rcases List.mem_cons.mp member with rfl | later
      · obtain ⟨version, begun⟩ := exists_validation_start schedule jobs opened
        exact ⟨_, version, Nat.le_refl _, validation_mem_obeyAll _ begun⟩
      · obtain ⟨ticket, version, fresh, begun⟩ :=
          ih (schedule.start around first).1 (obeyAll jobs (schedule.start around first).2) later
        have earlier := nextTicket_le_start around schedule first
        exact ⟨ticket, version, Nat.le_trans earlier fresh, begun⟩

end Job

namespace Course

/-- Holds if the latest validation of a document has still to end, and is of the given version. -/
def Validates (course : Course) (uri : String) (version : Int) : Prop :=
  ∃ ticket, course.schedule.running.get? uri = some ticket ∧
    Job.validation ticket uri version ∈ course.jobs

/-- A start gives an open document a validation of its present version. -/
theorem validates_start (course : Course) {around : Surroundings} {uri : String} {version : Int}
    (current : around.versionOf uri = some version) :
    (course.adopt (course.schedule.start around uri)).Validates uri version := by
  refine ⟨course.schedule.nextTicket, ?_, ?_⟩
  · simp [adopt, start, current, OrderedMap.get?_insert_self]
  · simp [adopt, start, current, Job.obeyAll_append, Job.obey]

namespace Validates

variable {course : Course} {uri : String} {version : Int}
  (validates : course.Validates uri version)
include validates

/-- A start of any document leaves an open document validated at its version. -/
theorem start {around : Surroundings} (current : around.versionOf uri = some version)
    (other : String) :
    (course.adopt (course.schedule.start around other)).Validates uri version := by
  by_cases same : other = uri
  · subst same
    exact course.validates_start current
  · obtain ⟨ticket, running, live⟩ := validates
    refine ⟨ticket, ?_, Job.validation_mem_obeyAll _ live⟩
    change (course.schedule.start around other).1.running.get? uri = some ticket
    unfold Schedule.start
    split
    · exact running
    · change ((course.schedule.running.erase other).insert other _).get? uri = _
      rw [OrderedMap.get?_insert_of_ne _ _ (Ne.symm same), OrderedMap.get?_erase,
        if_neg (Ne.symm same), running]

/-- Starting further validations keeps a document validated at its present version. -/
theorem startAll {around : Surroundings} (current : around.versionOf uri = some version)
    (uris : List String) :
    (course.adopt (startAll around course.schedule uris)).Validates uri version := by
  induction uris generalizing course with
  | nil => exact validates
  | cons other rest ih =>
      rw [adopt_startAll_cons]
      exact ih (validates.start current other)

/-- The end of a job that is no validation leaves it validated. -/
theorem leave {schedule : Schedule} (kept : schedule.running = course.schedule.running) {job : Job}
    (unvalidating : ∀ ticket, Job.validation ticket uri version ≠ job) :
    Validates ⟨schedule, course.jobs.erase job⟩ uri version := by
  obtain ⟨ticket, running, live⟩ := validates
  exact ⟨ticket, kept ▸ running, (List.mem_erase_of_ne (unvalidating ticket)).mpr live⟩

/-- The end of another validation leaves it validated, too. -/
theorem finish {around : Surroundings} {ticket : Ticket} {other : String} {number : Int}
    (different : course.schedule.running.get? uri ≠ some ticket) (ending : ValidationEnd) :
    ((course.drop (.validation ticket other number)).adopt
      (course.schedule.finish around ticket other number ending)).Validates uri version := by
  obtain ⟨latest, running, live⟩ := validates
  have newer : latest ≠ ticket := fun same => different (same ▸ running)
  refine ⟨latest, ?_, Job.validation_mem_obeyAll _ ((List.mem_erase_of_ne ?_).mpr live)⟩
  · obtain ⟨warned, warnings, shown, finishEq, -⟩ :=
      finish_cases around course.schedule ticket other number ending
    change (course.schedule.finish around ticket other number ending).1.running.get? uri = _
    rw [finishEq]
    simp only [leaveRunning]
    split
    · next ended =>
        have apart : uri ≠ other := fun same => different (same ▸ ended)
        rw [OrderedMap.get?_erase, if_neg apart, running]
    · exact running
  · exact fun same => newer (Job.validation.inj same).1

end Validates

end Course

end Schedule

end ModelAssist
