import ModelAssist.Proofs.Schedule.Course

/-!
# Histories of a schedule

What happened in a course, oldest first: every event that the schedule handled, and after it the
commands that it answered with, each with the surroundings of that moment.  The surroundings may
change in any way between two events.

A history explains a course (`Schedule.Course.Explained`) if every validation that has still to end
was started in it, at the version that the document had at that moment, and nothing superseded the
validation since unless it is cancelled.  Every run explains the course that it leads to
(`Schedule.Course.Run.explained`).
-/

namespace ModelAssist

namespace Schedule

/-- An event that a schedule handled, or a command that it gave. -/
inductive Deed where
  | event (event : ScheduleEvent)
  | command (command : ScheduleCommand)

/-- Something that happened to a schedule or through it, and the surroundings in which it did. -/
structure Happening where
  around : Surroundings
  deed : Deed

/-- Holds if the validations of a document that started before are outdated: the document is to be
validated anew while it is open, or it is closed, or everything stops. -/
def Happening.Supersedes (uri : String) (happening : Happening) : Prop :=
  match happening.deed with
  | .command (.validate _ other _) => other = uri
  | .event (.start other) => other = uri ∧ (happening.around.versionOf uri).isSome
  | .event (.quiet _ other) => other = uri ∧ (happening.around.versionOf uri).isSome
  | .event (.close other) => other = uri
  | .event .shutdown => True
  | _ => False

/-- Some commands as they were given in the same surroundings. -/
def given (around : Surroundings) (commands : List ScheduleCommand) : List Happening :=
  commands.map fun command => ⟨around, .command command⟩

/-- What happens when a schedule handles an event. -/
def recorded (around : Surroundings) (schedule : Schedule) (event : ScheduleEvent) :
    List Happening :=
  ⟨around, .event event⟩ :: given around (schedule.handle around event).2

/-- What the happenings of two lists of commands are is read one list after the other. -/
theorem given_append (around : Surroundings) (first second : List ScheduleCommand) :
    given around (first ++ second) = given around first ++ given around second :=
  List.map_append

/-- A command is noted with the surroundings it was given in. -/
theorem mem_given {around : Surroundings} {commands : List ScheduleCommand}
    {happening : Happening} (member : happening ∈ given around commands) :
    happening.around = around ∧ ∃ command ∈ commands, happening.deed = .command command := by
  obtain ⟨command, ordered, rfl⟩ := List.mem_map.mp member
  exact ⟨rfl, command, ordered, rfl⟩

/-- The command that was given, if one was. -/
def Happening.command? (happening : Happening) : Option ScheduleCommand :=
  match happening.deed with
  | .command command => some command
  | .event _ => none

/-- What comes with an event are the commands that the schedule answers with. -/
@[simp] theorem filterMap_command?_recorded (around : Surroundings) (schedule : Schedule)
    (event : ScheduleEvent) :
    (recorded around schedule event).filterMap Happening.command? =
      (schedule.handle around event).2 := by
  rw [recorded, List.filterMap_cons_none rfl, given, List.filterMap_map]
  exact List.filterMap_some

namespace Course

/-- The histories of the courses that begin with nothing going on.  A cancelled validation may be
lost without a report. -/
inductive Run : List Happening → Course → Prop
  | initial (quietSeconds dependentSeconds : Float) :
      Run [] (Course.initial quietSeconds dependentSeconds)
  | step {history : List Happening} {before after : Course} {around : Surroundings}
      {event : ScheduleEvent} (run : Run history before) (step : Step around before event after) :
      Run (history ++ recorded around before.schedule event) after
  | lose {history : List Happening} {course : Course} {ticket : Ticket} (run : Run history course)
      (cancelled : ticket ∈ course.schedule.cancelled) (uri : String) (version : Int) :
      Run history (course.drop (.validation ticket uri version))

/-- Every course that a history leads to is sound. -/
theorem Run.sound {history : List Happening} {course : Course} (run : Run history course) :
    course.Sound := by
  induction run with
  | initial quietSeconds dependentSeconds => exact sound_initial quietSeconds dependentSeconds
  | step run step ih => exact step.sound ih
  | lose run cancelled uri version ih => exact ih.drop_cancelled cancelled uri version

/-- Holds if a history tells how the validation of a version of a document started, and of nothing
that superseded it since unless it is cancelled. -/
def Tells (history : List Happening) (cancelled : List Ticket) (ticket : Ticket) (uri : String)
    (version : Int) : Prop :=
  ∃ earlier around later,
    history = earlier ++ ⟨around, .command (.validate ticket uri version)⟩ :: later ∧
    around.versionOf uri = some version ∧
    (ticket ∉ cancelled → ∀ happening ∈ later, ¬ happening.Supersedes uri)

/-- Holds if a history tells of all validations that have still to end. -/
def Explained (history : List Happening) (course : Course) : Prop :=
  ∀ ticket uri version, Job.validation ticket uri version ∈ course.jobs →
    Tells history course.schedule.cancelled ticket uri version

/-- A history goes on telling of a validation while it is not superseded without being
cancelled. -/
theorem Tells.extend {history : List Happening} {cancelled : List Ticket} {ticket : Ticket}
    {uri : String} {version : Int} (tells : Tells history cancelled ticket uri version)
    {cancelled' : List Ticket} (kept : ticket ∈ cancelled → ticket ∈ cancelled')
    {further : List Happening}
    (undisturbed : ticket ∉ cancelled' → ∀ happening ∈ further, ¬ happening.Supersedes uri) :
    Tells (history ++ further) cancelled' ticket uri version := by
  obtain ⟨earlier, around, later, split, current, quiet⟩ := tells
  refine ⟨earlier, around, later ++ further, by simp [split], current, ?_⟩
  intro uncancelled happening member
  rcases List.mem_append.mp member with old | new
  · exact quiet (fun before => uncancelled (kept before)) happening old
  · exact undisturbed uncancelled happening new

namespace Explained

variable {history : List Happening} {course : Course} (explained : Explained history course)
include explained

/-- A change that starts no validation, and that cancels those that it supersedes, is no reason to
explain anything anew. -/
theorem keep (after : Course) (further : List Happening)
    (older : ∀ ticket uri version, Job.validation ticket uri version ∈ after.jobs →
      Job.validation ticket uri version ∈ course.jobs)
    (cancelled : ∀ ticket ∈ course.schedule.cancelled, ticket ∈ after.schedule.cancelled)
    (undisturbed : ∀ ticket uri version, Job.validation ticket uri version ∈ after.jobs →
      ticket ∉ after.schedule.cancelled → ∀ happening ∈ further, ¬ happening.Supersedes uri) :
    Explained (history ++ further) after := by
  intro ticket uri version live
  exact (explained ticket uri version (older ticket uri version live)).extend (cancelled ticket)
    (undisturbed ticket uri version live)

/-- The start of a validation is told, and it cancels the one that it supersedes.  What led to it
may supersede that one, too. -/
theorem start (sound : course.Sound) (around : Surroundings) (uri : String)
    (lead : List Happening)
    (leads : ∀ happening ∈ lead, ∀ other, happening.Supersedes other →
      other = uri ∧ (around.versionOf uri).isSome) :
    Explained (history ++ (lead ++ given around (course.schedule.start around uri).2))
      (course.adopt (course.schedule.start around uri)) := by
  cases opened : around.versionOf uri with
  | none =>
      have unchanged : course.schedule.start around uri = (course.schedule, []) := by
        simp [Schedule.start, opened]
      rw [unchanged]
      refine explained.keep _ _ (fun ticket uri version live => live)
        (fun ticket member => member) ?_
      intro ticket other version live uncancelled happening member supersedes
      have opens := (leads happening (by simpa [given] using member) other supersedes).2
      simp [opened] at opens
  | some version =>
      intro ticket other started live
      let superseded := (course.schedule.running.get? uri).toList
      have startEq : (course.schedule.start around uri).2 =
          superseded.map (.cancel · supersededReason) ++
            [.validate course.schedule.nextTicket uri version] := by
        simp [Schedule.start, opened, superseded]
      have cancelledEq : (course.adopt (course.schedule.start around uri)).schedule.cancelled =
          course.schedule.cancelled ++ superseded := by
        simp [Schedule.start, adopt, opened, superseded]
      have jobsEq : (course.adopt (course.schedule.start around uri)).jobs =
          course.jobs ++ [.validation course.schedule.nextTicket uri version] := by
        simp [adopt, startEq, Job.obeyAll_append, Job.obey]
      rw [cancelledEq, startEq]
      rw [jobsEq] at live
      rcases List.mem_append.mp live with old | new
      · refine (explained ticket other started old).extend (List.mem_append_left _) ?_
        intro uncancelled happening member supersedes
        have same : other = uri := by
          rcases List.mem_append.mp member with led | ordered
          · exact (leads happening led other supersedes).1
          · obtain ⟨_, command, commanded, deed⟩ := mem_given ordered
            rcases List.mem_append.mp commanded with cancel | validate
            · obtain ⟨_, _, rfl⟩ := List.mem_map.mp cancel
              simp [Happening.Supersedes, deed] at supersedes
            · rw [List.mem_singleton.mp validate] at deed
              simp only [Happening.Supersedes, deed] at supersedes
              exact supersedes.symm
        -- The document has a live validation that nothing cancelled, so it is the running one.
        have running := (sound.running_iff other ticket).mpr
          ⟨fun before => uncancelled (List.mem_append_left _ before), started, old⟩
        rw [same] at running
        exact uncancelled (List.mem_append_right _ (Option.mem_toList.mpr running))
      · obtain ⟨rfl, rfl, rfl⟩ := Job.validation.inj (List.mem_singleton.mp new)
        refine ⟨history ++ lead ++ given around (superseded.map (.cancel · supersededReason)),
          around, [], ?_, opened, by simp⟩
        simp [given]

/-- Validations that start one after another are told of in their order. -/
theorem startAll (sound : course.Sound) (around : Surroundings) (uris : List String) :
    Explained (history ++ given around (startAll around course.schedule uris).2)
      (course.adopt (Schedule.startAll around course.schedule uris)) := by
  induction uris generalizing history course with
  | nil => simpa [Schedule.startAll, given, adopt] using explained
  | cons uri rest ih =>
      have begun := explained.start sound around uri []
        (fun happening member => by cases member)
      have started := ih begun (sound.adopt_start around uri)
      rw [startAll_cons, given_append, ← List.append_assoc]
      simpa [adopt, Job.obeyAll_append] using started

/-- Dropping a job leaves every remaining one explained. -/
theorem drop (job : Job) : Explained history (course.drop job) := by
  have kept := explained.keep (course.drop job) []
    (fun ticket uri version live => List.mem_of_mem_erase live) (fun ticket member => member)
    (fun ticket uri version live uncancelled happening member => by cases member)
  simpa using kept

/-- An event that starts no validation is told with its commands; if it supersedes validations, it
has to cancel them. -/
theorem adopt {around : Surroundings} {event : ScheduleEvent}
    {change : Schedule × List ScheduleCommand}
    (starts : ∀ ticket uri version, .validate ticket uri version ∉ change.2)
    (cancelled : ∀ ticket ∈ course.schedule.cancelled, ticket ∈ change.1.cancelled)
    (undisturbed : ∀ ticket uri version, Job.validation ticket uri version ∈ course.jobs →
      ticket ∉ change.1.cancelled → ¬ Happening.Supersedes uri ⟨around, .event event⟩) :
    Explained (history ++ ⟨around, .event event⟩ :: given around change.2)
      (course.adopt change) := by
  have older : ∀ ticket uri version,
      Job.validation ticket uri version ∈ (course.adopt change).jobs →
        Job.validation ticket uri version ∈ course.jobs :=
    fun ticket uri version live => Job.validation_mem_of_obeyAll starts live
  refine explained.keep _ _ older cancelled ?_
  intro ticket uri version live uncancelled happening member
  rcases List.mem_cons.mp member with rfl | ordered
  · exact undisturbed ticket uri version (older ticket uri version live) uncancelled
  · obtain ⟨_, command, commanded, deed⟩ := mem_given ordered
    intro supersedes
    cases command with
    | validate number other started => exact starts number other started commanded
    | _ => simp [Happening.Supersedes, deed] at supersedes

/-- An event that supersedes no document leaves every job explained. -/
theorem note (around : Surroundings) (event : ScheduleEvent)
    (harmless : ∀ uri, ¬ Happening.Supersedes uri ⟨around, .event event⟩) :
    Explained (history ++ [⟨around, .event event⟩]) course := by
  refine explained.keep _ _ (fun ticket uri version live => live) (fun ticket member => member) ?_
  intro ticket uri version live uncancelled happening member
  rw [List.mem_singleton.mp member]
  exact harmless uri

/-- An event that has one document validated is told with the start. -/
theorem startBy (sound : course.Sound) (around : Surroundings) (uri : String)
    {event : ScheduleEvent}
    (supersedes : ∀ other, Happening.Supersedes other ⟨around, .event event⟩ →
      uri = other ∧ (around.versionOf other).isSome) :
    Explained
      (history ++ ⟨around, .event event⟩ :: given around (course.schedule.start around uri).2)
      (course.adopt (course.schedule.start around uri)) := by
  refine explained.start sound around uri [⟨around, .event event⟩] ?_
  intro happening member other superseded
  rw [List.mem_singleton.mp member] at superseded
  obtain ⟨rfl, opened⟩ := supersedes other superseded
  exact ⟨rfl, opened⟩

/-! ### Requests -/

/-- Waiting for a document to go quiet keeps every job explained. -/
theorem awaitQuiet (around : Surroundings) (uri : String) (seconds : Option Float) :
    Explained (history ++ recorded around course.schedule (.schedule uri seconds))
      (course.adopt (course.schedule.handle around (.schedule uri seconds))) := by
  refine explained.adopt ?_ (fun ticket member => member) ?_
  · simp [handle, Schedule.awaitQuiet]
  · exact fun _ _ _ _ _ supersedes => supersedes

/-- Waiting for the dependents to go quiet keeps every job explained. -/
theorem awaitDependents (around : Surroundings) (uri : String) :
    Explained (history ++ recorded around course.schedule (.scheduleDependents uri))
      (course.adopt (course.schedule.handle around (.scheduleDependents uri))) := by
  refine explained.adopt ?_ (fun ticket member => member) ?_
  · simp [handle, Schedule.awaitDependents]
  · exact fun _ _ _ _ _ supersedes => supersedes

/-- The validation of a document that is closed is the running one, which the close cancels. -/
theorem close (sound : course.Sound) (around : Surroundings) (uri : String) :
    Explained (history ++ recorded around course.schedule (.close uri))
      (course.adopt (course.schedule.handle around (.close uri))) := by
  refine explained.adopt ?_ (fun ticket member => List.mem_append_left _ member) ?_
  · simp [handle, Schedule.close]
  · intro ticket other version live uncancelled supersedes
    have running := (sound.running_iff other ticket).mpr
      ⟨fun earlier => uncancelled (List.mem_append_left _ earlier), version, live⟩
    change uri = other at supersedes
    apply uncancelled
    apply List.mem_append_right
    rw [← supersedes] at running
    exact Option.mem_toList.mpr running

/-- Shutting down keeps every job explained, for it leaves none. -/
theorem shutdown (sound : course.Sound) (around : Surroundings) :
    Explained (history ++ recorded around course.schedule .shutdown)
      (course.adopt (course.schedule.handle around .shutdown)) := by
  refine explained.adopt ?_ (fun ticket member => List.mem_append_left _ member) ?_
  · simp [handle, Schedule.shutdown]
  · intro ticket other version live uncancelled _
    have running := (sound.running_iff other ticket).mpr
      ⟨fun earlier => uncancelled (List.mem_append_left _ earlier), version, live⟩
    exact uncancelled (List.mem_append_right _ (OrderedMap.mem_values_of_get? running))

/-! ### Reports of jobs -/

/-- A document that has gone quiet keeps every job explained. -/
theorem quiet (sound : course.Sound) (around : Surroundings) {ticket : Ticket} {uri : String}
    (live : Job.quiet ticket uri ∈ course.jobs) :
    Explained (history ++ recorded around course.schedule (.quiet ticket uri))
      ((course.drop (.quiet ticket uri)).adopt
        (course.schedule.handle around (.quiet ticket uri))) := by
  have left : Explained history (Course.mk (course.schedule.leaveQuiet ticket uri)
      (course.jobs.erase (.quiet ticket uri))) := by
    rw [sound.leaveQuiet_eq live]
    exact explained.drop (.quiet ticket uri)
  exact left.startBy (sound.drop_quiet live) around uri fun _ supersedes => supersedes

/-- Dependents that have gone quiet keep every job explained. -/
theorem dependentsQuiet (sound : course.Sound) (around : Surroundings) {ticket : Ticket}
    (live : Job.dependentsQuiet ticket ∈ course.jobs) :
    Explained (history ++ recorded around course.schedule .dependentsQuiet)
      ((course.drop (.dependentsQuiet ticket)).adopt
        (course.schedule.handle around .dependentsQuiet)) := by
  have noted := (explained.drop (.dependentsQuiet ticket)).note around .dependentsQuiet
    (fun _ supersedes => supersedes)
  have left : Explained (history ++ [⟨around, .event .dependentsQuiet⟩])
      (Course.mk { course.schedule with changed := [], dependentsTimer := none }
        (course.jobs.erase (.dependentsQuiet ticket))) := noted
  have told := left.startAll (sound.drop_dependentsQuiet live) around
    (affected around course.schedule.changed)
  rw [List.append_assoc] at told
  exact told

/-- A validation that ends, and may be started over, keeps every job explained. -/
theorem ended (around : Surroundings) (ticket : Ticket) (uri : String) (version : Int)
    (ending : ValidationEnd) :
    Explained (history ++ recorded around course.schedule (.ended ticket uri version ending))
      ((course.drop (.validation ticket uri version)).adopt
        (course.schedule.handle around (.ended ticket uri version ending))) := by
  obtain ⟨warned, warnings, shown, finishEq, shows⟩ :=
    finish_cases around course.schedule ticket uri version ending
  refine (explained.drop (.validation ticket uri version)).adopt ?_ ?_ ?_
  · intro number other started member
    rw [handle, finishEq] at member
    rcases shows with rfl | ⟨found, rfl, _⟩ <;> simp at member
  · intro number member
    rw [handle, finishEq]
    change number ∈ (course.schedule.leaveRunning ticket uri).cancelled
    rw [leaveRunning_cancelled]
    exact member
  · exact fun _ _ _ _ _ supersedes => supersedes

end Explained

/-- **Every step is told, and explains what it starts.** -/
theorem Step.explained {around : Surroundings} {before after : Course} {event : ScheduleEvent}
    (step : Step around before event after) (sound : before.Sound) {history : List Happening}
    (explained : Explained history before) :
    Explained (history ++ recorded around before.schedule event) after := by
  cases step with
  | request asked =>
      cases event with
      | schedule uri seconds => exact explained.awaitQuiet around uri seconds
      | scheduleDependents uri => exact explained.awaitDependents around uri
      | start uri => exact explained.startBy sound around uri fun _ supersedes => supersedes
      | close uri => exact explained.close sound around uri
      | shutdown => exact explained.shutdown sound around
      | quiet _ _ => exact asked.elim
      | dependentsQuiet => exact asked.elim
      | ended _ _ _ _ => exact asked.elim
  | report live reports =>
      cases reports with
      | quiet ticket uri => exact explained.quiet sound around live
      | dependentsQuiet ticket => exact explained.dependentsQuiet sound around live
      | validation ticket uri version ending =>
          exact explained.ended around ticket uri version ending

/-- **Every run is told.** -/
theorem Run.explained {history : List Happening} {course : Course} (run : Run history course) :
    Explained history course := by
  induction run with
  | initial => exact fun ticket uri version live => by cases live
  | step run step ih => exact step.explained run.sound ih
  | lose run cancelled uri version ih => exact ih.drop (.validation _ uri version)

end Course

end Schedule

end ModelAssist
