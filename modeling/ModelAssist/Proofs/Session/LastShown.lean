import ModelAssist.Proofs.Schedule.Publication
import ModelAssist.Proofs.Session.Freshness

/-!
# The diagnostics that are shown last

Every change of a document begins a quiet period, every quiet period of an open document ends in a
validation, and a validation that is not superseded shows diagnostics of the version that it
started with.  So of an open document that is in no quiet period and not being validated the
diagnostics that were shown last are those of its current version (`Run.last_shown_of_settled`), if
validations give up only when their token is cancelled.
-/

namespace ModelAssist

open Schedule (Job)

namespace Schedule

/-- The versions of a document of which some commands show diagnostics; a document that is closed
has none. -/
def shownBy (uri : String) (commands : List ScheduleCommand) : List (Option Int) :=
  commands.filterMap fun
    | .publish other _ version => if other = uri then some version else none
    | _ => none

/-- A document that no command publishes is shown nothing. -/
theorem shownBy_eq_nil {uri : String} {commands : List ScheduleCommand}
    (silent : ∀ found version, .publish uri found version ∉ commands) :
    shownBy uri commands = [] := by
  rw [shownBy, List.filterMap_eq_nil_iff]
  intro command member
  split
  · next other found version =>
      rw [if_neg]
      rintro rfl
      exact silent found version member
  · rfl

@[simp] theorem shownBy_append (uri : String) (first second : List ScheduleCommand) :
    shownBy uri (first ++ second) = shownBy uri first ++ shownBy uri second :=
  List.filterMap_append

/-- Diagnostics of a validation that was not cancelled are shown while the document is still at its
version, and nothing is shown otherwise. -/
theorem shownBy_finish (around : Surroundings) (schedule : Schedule) (ticket : Ticket)
    (uri other : String) (version : Int) (ending : ValidationEnd) :
    shownBy other (schedule.finish around ticket uri version ending).2 =
      if uri = other ∧ ending.shown?.isSome ∧ ticket ∉ schedule.cancelled ∧
        around.versionOf uri = some version then [some version] else [] := by
  have showing : ∀ warned found,
      shownBy other (show? around { schedule.leaveRunning ticket uri with warned } ticket uri
          version found) =
        if uri = other ∧ ticket ∉ schedule.cancelled ∧ around.versionOf uri = some version then
          [some version] else [] := by
    intro warned found
    simp only [show?, leaveRunning_cancelled]
    by_cases shows : ticket ∉ schedule.cancelled ∧ around.versionOf uri = some version
    · obtain ⟨uncancelled, current⟩ := shows
      by_cases same : uri = other
      · subst same
        simp [shownBy, uncancelled, current]
      · simp [shownBy, uncancelled, current, same]
    · have outdated : (schedule.cancelled.contains ticket ||
          decide (around.versionOf uri ≠ some version)) = true := by
        by_contra current
        simp only [Bool.or_eq_true, List.contains_iff_mem, decide_eq_true_eq, not_or,
          not_not] at current
        exact shows current
      rw [if_pos outdated, if_neg fun all => shows all.2]
      rfl
  cases ending with
  | interrupted => simp [finish, ValidationEnd.shown?, shownBy]
  | cancelled => simp [finish, ValidationEnd.shown?, shownBy]
  | diagnostics found =>
      simp only [ValidationEnd.shown?, Option.isSome_some, true_and]
      exact showing _ found
  | broken =>
      simp only [ValidationEnd.shown?, Option.isSome_some, true_and]
      exact showing _ []
  | failed failure =>
      simp only [ValidationEnd.shown?, Option.isSome_some, true_and, finish, tell]
      split
      · exact showing _ []
      · rw [shownBy_append]
        exact showing _ []

end Schedule

namespace Session

namespace Course

/-- What the schedule of a course wants done because of an event. -/
def answers [Host] (course : Course) (event : ScheduleEvent) : List ScheduleCommand :=
  (course.schedule.handle (host.surroundings course.session) event).2

/-- What the schedule wants done because of what happens. -/
def Occurrence.commands [Host] (before : Course) : Occurrence → List ScheduleCommand
  | .opened uri text version =>
    Course.answers { before with session := afterOpening uri text version before.session }
      (.schedule uri none)
  | .edited uri changes version =>
    match before.documents.get? uri with
    | none => []
    | some document =>
      let text := changes.foldl (fun text change => change.apply text) document.text
      let edited : Course :=
        { before with session := afterEditing uri text version before.session }
      edited.answers (.schedule uri none) ++
        (edited.react (.schedule uri none)).answers (.scheduleDependents uri)
  | .closed uri =>
    let closed : Course :=
      { before with session := before.session.withDocuments (before.documents.close uri) }
    let after := closed.react (.close uri)
    closed.answers (.close uri) ++
      match (before.documents.get? uri).bind (·.path) with
      | none => []
      | some path => (after.withWorkspace (after.workspace.documentClosed path)).answers
          (.scheduleDependents uri)
  | .reported event => before.answers event
  | .indexed _ _ | .stored _ => []

/-- The schedule of a course with its jobs. -/
def core (course : Course) : Schedule.Course := ⟨course.schedule, course.jobs⟩

/-- Holds of a version of a document if the diagnostics that are shown last are of this version or
are going to be: the document is in a quiet period or being validated, or they were shown. -/
inductive Attends (course : Course) (shown : List (Option Int)) (uri : String) (version : Int) :
    Prop
  | waits (pending : (course.pending? uri).isSome)
  | runs (validates : course.core.Validates uri version)
  | done (last : shown.getLast? = some (some version))

end Course

/-- The versions of a document of which a moment shows diagnostics. -/
def Moment.shown [Host] (uri : String) (moment : Moment) : List (Option Int) :=
  Schedule.shownBy uri (moment.occurrence.commands moment.before)

/-- Holds unless a validation gives up though its token was not cancelled. -/
def Moment.Loyal [Host] (moment : Moment) : Prop :=
  ∀ ticket uri version ending,
    moment.occurrence = .reported (.ended ticket uri version ending) → ending.shown? = none →
      ticket ∈ moment.before.schedule.cancelled

namespace Course.Attends

variable {course : Course} {shown : List (Option Int)} {uri : String} {version : Int}
  (attends : course.Attends shown uri version)
include attends

/-- A document whose quiet period, validations and diagnostics stay as they are stays attended
to. -/
theorem keep {after : Course} (pending : after.pending? uri = course.pending? uri)
    (running : after.schedule.running.get? uri = course.schedule.running.get? uri)
    (jobs : ∀ ticket, Job.validation ticket uri version ∈ course.jobs →
      Job.validation ticket uri version ∈ after.jobs) : after.Attends shown uri version := by
  cases attends with
  | waits waiting => exact .waits (pending ▸ waiting)
  | runs validates =>
      obtain ⟨ticket, latest, live⟩ := validates
      exact .runs ⟨ticket, running.trans latest, jobs ticket live⟩
  | done last => exact .done last

/-- Another document is planned. -/
theorem planned [Host] {other : String} (different : uri ≠ other) :
    (course.react (.schedule other none)).Attends shown uri version :=
  attends.keep (by rw [pending?_react_schedule, if_neg different]) rfl
    fun _ live => Job.validation_mem_obeyAll _ live

/-- Importers are waited for. -/
theorem awaited [Host] (other : String) :
    (course.react (.scheduleDependents other)).Attends shown uri version :=
  attends.keep rfl rfl fun _ live => Job.validation_mem_obeyAll _ live

/-- Another document is closed. -/
theorem dropped [Host] {other : String} (different : uri ≠ other) :
    (course.react (.close other)).Attends shown uri version := by
  apply attends.keep
  · rw [pending?_react_close, if_neg different]
  · exact (OrderedMap.get?_erase _ _ _).trans (if_neg different)
  · exact fun _ live => Job.validation_mem_obeyAll _ live

/-- Only the documents and the index change. -/
theorem amended (workspace : Workspace) :
    (course.withWorkspace workspace).Attends shown uri version :=
  attends.keep rfl rfl fun _ live => live

end Course.Attends

section

variable [Host]

namespace Moment

variable {uri : String} {document : Document} {shown : List (Option Int)}

private theorem attends_opened {course : Course} {other text : String} {number : Int}
    (opened : (course.opened other text number).documents.get? uri = some document)
    (attends : ∀ earlier, course.documents.get? uri = some earlier →
      course.Attends shown uri earlier.version) :
    (course.opened other text number).Attends shown uri document.version := by
  obtain ⟨workspace, openedEq, index, rfl, -⟩ := course.opened_eq other text number
  rw [openedEq] at opened ⊢
  by_cases same : uri = other
  · apply Course.Attends.waits
    rw [Course.pending?_react_schedule, if_pos same]
    rfl
  · have kept : course.documents.get? uri = some document :=
      (DocumentStore.get?_openDocument_of_ne _ _ _ _ same).symm.trans opened
    exact ((attends document kept).amended _).planned same

private theorem attends_edited {course : Course} {other : String} {changes : List TextChange}
    {number : Int}
    (opened : (course.edited other changes number).documents.get? uri = some document)
    (attends : ∀ earlier, course.documents.get? uri = some earlier →
      course.Attends shown uri earlier.version) :
    (course.edited other changes number).Attends shown uri document.version := by
  cases known : course.documents.get? other with
  | none =>
      rw [course.edited_eq_self known] at opened ⊢
      exact attends document opened
  | some earlier =>
      have isOpen : (course.documents.get? other).isSome := by rw [known]; rfl
      obtain ⟨workspace, text, editedEq, index, rfl, -⟩ := course.edited_eq isOpen changes number
      rw [editedEq] at opened ⊢
      by_cases same : uri = other
      · apply Course.Attends.awaited
        apply Course.Attends.waits
        rw [Course.pending?_react_schedule, if_pos same]
        rfl
      · have kept : course.documents.get? uri = some document :=
          (DocumentStore.get?_update_of_ne _ _ _ _ same).symm.trans opened
        exact (((attends document kept).amended _).planned same).awaited other

private theorem attends_closed {course : Course} {other : String}
    (opened : (course.closed other).documents.get? uri = some document)
    (attends : ∀ earlier, course.documents.get? uri = some earlier →
      course.Attends shown uri earlier.version) :
    uri ≠ other ∧ (course.closed other).Attends shown uri document.version := by
  rw [Course.get?_closed] at opened
  split at opened
  · cases opened
  · next different =>
      refine ⟨different, ?_⟩
      have dropped := fun workspace =>
        ((attends document opened).amended workspace).dropped different
      obtain ⟨first, _, closedEq⟩ := course.closed_eq other
      split at closedEq
      · rw [closedEq]
        exact dropped first
      · obtain ⟨second, closedEq, _⟩ := closedEq
        rw [closedEq]
        exact ((dropped first).amended second).awaited other

section Reports

variable {course : Course} {ticket : Ticket} {other : String} {version : Int}

/-- The end of a quiet period starts the validation that the document waited for. -/
private theorem attends_quiet (sound : course.Sound) (live : Job.quiet ticket other ∈ course.jobs)
    (current : (host.surroundings course.session).versionOf uri = some version)
    (attends : course.Attends shown uri version) :
    ((course.drop (.quiet ticket other)).react (.quiet ticket other)).Attends
      (shown ++ Schedule.shownBy uri (course.answers (.quiet ticket other))) uri version := by
  have silent : Schedule.shownBy uri (course.answers (.quiet ticket other)) = [] :=
    Schedule.shownBy_eq_nil fun _ _ => Schedule.restarts_of_mem_start
  rw [silent, List.append_nil]
  let dropped : Schedule.Course :=
    ⟨course.schedule.leaveQuiet ticket other, course.jobs.erase (.quiet ticket other)⟩
  by_cases same : uri = other
  · subst same
    exact .runs (dropped.validates_start current)
  · cases attends with
    | waits pending =>
        apply Course.Attends.waits
        rw [Course.pending?_report_quiet sound live, if_neg same]
        exact pending
    | runs validates =>
        have kept : dropped.schedule.running = course.schedule.running := by
          simp only [dropped, sound.core.leaveQuiet_eq live]
        have left : dropped.Validates uri version := validates.leave kept fun _ => nofun
        exact .runs (left.start current other)
    | done last => exact .done last

/-- The end of the quiet time for importers starts validations and leaves quiet periods alone. -/
private theorem attends_dependentsQuiet
    (current : (host.surroundings course.session).versionOf uri = some version)
    (attends : course.Attends shown uri version) :
    ((course.drop (.dependentsQuiet ticket)).react .dependentsQuiet).Attends
      (shown ++ Schedule.shownBy uri (course.answers .dependentsQuiet)) uri version := by
  have silent : Schedule.shownBy uri (course.answers .dependentsQuiet) = [] :=
    Schedule.shownBy_eq_nil fun _ _ => Schedule.restarts_of_mem_startAll
  rw [silent, List.append_nil]
  cases attends with
  | waits pending =>
      apply Course.Attends.waits
      rw [Course.pending?_report_dependentsQuiet]
      exact pending
  | runs validates =>
      have left : Schedule.Course.Validates
          ⟨{ course.schedule with changed := [], dependentsTimer := none },
            course.jobs.erase (.dependentsQuiet ticket)⟩ uri version :=
        validates.leave rfl fun _ => nofun
      exact .runs (left.startAll current _)
  | done last => exact .done last

/-- The end of a validation shows diagnostics, or another validation of the document goes on. -/
private theorem attends_ended (sound : course.Sound) {number : Int} {ending : ValidationEnd}
    (live : Job.validation ticket other number ∈ course.jobs)
    (loyal : ending.shown? = none → ticket ∈ course.schedule.cancelled)
    (current : (host.surroundings course.session).versionOf uri = some version)
    (attends : course.Attends shown uri version) :
    ((course.drop (.validation ticket other number)).react
      (.ended ticket other number ending)).Attends
      (shown ++ Schedule.shownBy uri (course.answers (.ended ticket other number ending)))
      uri version := by
  have shows := Schedule.shownBy_finish (host.surroundings course.session) course.schedule
    ticket other uri number ending
  cases attends with
  | waits pending =>
      have kept : ((course.drop (.validation ticket other number)).react
          (.ended ticket other number ending)).pending? uri = course.pending? uri :=
        congrArg (fun plans => plans.1.get? uri)
          (course.plans_report_validation ticket other number ending)
      exact .waits (kept.symm ▸ pending)
  | runs validates =>
      by_cases ended : course.schedule.running.get? uri = some ticket
      · obtain ⟨latest, running, validates⟩ := validates
        obtain rfl : latest = ticket := Option.some.inj (running.symm.trans ended)
        obtain ⟨-, rfl, rfl⟩ := Job.validation.inj (sound.core.job_eq validates live rfl)
        obtain ⟨uncancelled, -⟩ := (sound.core.running_iff uri latest).mp running
        have told : ending.shown?.isSome := by
          rw [Option.isSome_iff_ne_none]
          exact fun silent => uncancelled (loyal silent)
        rw [if_pos ⟨rfl, told, uncancelled, current⟩] at shows
        apply Course.Attends.done
        rw [Course.answers, Schedule.handle, shows, List.getLast?_concat]
      · exact .runs (validates.finish ended ending)
  | done last =>
      apply Course.Attends.done
      rw [Course.answers, Schedule.handle, shows]
      split
      · next shown_ =>
          obtain ⟨rfl, -, -, now⟩ := shown_
          rw [List.getLast?_concat, Option.some.inj (now.symm.trans current)]
      · rw [List.append_nil]
        exact last

/-- What the report of a job leaves of the attention to an open document, given the version that it
has. -/
private theorem attends_reported {job : Job} (sound : course.Sound)
    (live : job ∈ course.jobs) {event : ScheduleEvent} (reports : job.Reports event)
    (loyal : Loyal ⟨_, _, _, .reported course live reports⟩)
    (opened : course.documents.get? uri = some document)
    (attends : course.Attends shown uri document.version) :
    ((course.drop job).react event).Attends (shown ++ Schedule.shownBy uri (course.answers event))
      uri document.version := by
  have current : (host.surroundings course.session).versionOf uri = some document.version := by
    change (course.documents.get? uri).map (·.version) = _
    rw [opened, Option.map_some]
  cases reports with
  | quiet ticket other => exact attends_quiet sound live current attends
  | dependentsQuiet ticket => exact attends_dependentsQuiet current attends
  | validation ticket other number ending =>
      exact attends_ended sound live (loyal _ _ _ _ rfl) current attends

end Reports

/-- Nothing is shown of a document unless a job reports or the document is closed. -/
private theorem shown_eq_nil {moment : Moment}
    (unreported : ∀ event, moment.occurrence ≠ .reported event)
    (unclosed : moment.occurrence ≠ .closed uri) : moment.shown uri = [] := by
  obtain ⟨before, occurrence, after, step⟩ := moment
  apply Schedule.shownBy_eq_nil
  intro found version
  cases occurrence with
  | opened other text number =>
      simp [Course.Occurrence.commands, Course.answers, Schedule.handle, Schedule.awaitQuiet]
  | edited other changes number =>
      simp only [Course.Occurrence.commands]
      split
      · exact List.not_mem_nil
      · simp [Course.answers, Schedule.handle, Schedule.awaitQuiet, Schedule.awaitDependents]
  | closed other =>
      have different : uri ≠ other := fun same => unclosed (congrArg _ same.symm)
      simp only [Course.Occurrence.commands, List.mem_append, not_or]
      constructor
      · simp [Course.answers, Schedule.handle, Schedule.close, different]
      · split
        · exact List.not_mem_nil
        · simp [Course.answers, Schedule.handle, Schedule.awaitDependents]
  | reported event => exact absurd rfl (unreported event)
  | indexed file content => exact List.not_mem_nil
  | stored files => exact List.not_mem_nil

private theorem attends_of_unshown {moment : Moment} {version : Int}
    (unreported : ∀ event, moment.occurrence ≠ .reported event)
    (unclosed : moment.occurrence ≠ .closed uri)
    (attends : moment.after.Attends shown uri version) :
    moment.after.Attends (shown ++ moment.shown uri) uri version := by
  rw [shown_eq_nil unreported unclosed, List.append_nil]
  exact attends

/-- **Every moment leaves the open documents attended to.** -/
theorem attends {moment : Moment} (sound : moment.before.Sound) (loyal : moment.Loyal)
    (opened : moment.after.documents.get? uri = some document)
    (attended : ∀ earlier, moment.before.documents.get? uri = some earlier →
      moment.before.Attends shown uri earlier.version) :
    moment.after.Attends (shown ++ moment.shown uri) uri document.version := by
  obtain ⟨before, occurrence, after, step⟩ := moment
  cases step with
  | opened other text number =>
      exact attends_of_unshown (fun _ => nofun) nofun (attends_opened opened attended)
  | edited other changes number =>
      exact attends_of_unshown (fun _ => nofun) nofun (attends_edited opened attended)
  | closed other =>
      obtain ⟨different, attends⟩ := attends_closed opened attended
      have unclosed : Course.Occurrence.closed other ≠ .closed uri := by
        rintro same
        exact different (Course.Occurrence.closed.inj same).symm
      exact attends_of_unshown (fun _ => nofun) unclosed attends
  | reported live reports =>
      exact attends_reported sound live reports loyal opened (attended document opened)
  | indexed file content =>
      obtain ⟨index, indexedEq, -⟩ := Course.amends_indexFile before.workspace file content
      have kept : before.documents.get? uri = some document := by
        rw [← opened]
        exact congrArg (fun workspace => workspace.documents.get? uri) indexedEq.symm
      exact attends_of_unshown (fun _ => nofun) nofun ((attended document kept).amended _)
  | stored files =>
      exact attends_of_unshown (fun _ => nofun) nofun ((attended document opened).amended _)

end Moment

/-- The versions of a document of which diagnostics were shown in some moments, first one first. -/
def shown (uri : String) (history : List Moment) : List (Option Int) :=
  history.flatMap (Moment.shown uri)

/-- A stretch of loyal moments leaves open documents attended to. -/
theorem Stretch.attends {start finish : Course} {moments : List Moment}
    (stretch : Stretch start moments finish) (sound : start.Sound)
    (loyal : ∀ moment ∈ moments, moment.Loyal) {uri : String} {earlier : List (Option Int)}
    (attended : ∀ document, start.documents.get? uri = some document →
      start.Attends earlier uri document.version) :
    ∀ document, finish.documents.get? uri = some document →
      finish.Attends (earlier ++ shown uri moments) uri document.version := by
  induction stretch generalizing earlier with
  | nil =>
      intro document opened
      rw [shown, List.flatMap_nil, List.append_nil]
      exact attended document opened
  | cons moment stretch ih =>
      obtain ⟨first, loyal⟩ := List.forall_mem_cons.mp loyal
      intro document opened
      rw [shown, List.flatMap_cons, ← List.append_assoc]
      apply ih (moment.step.sound sound) loyal _ document opened
      intro document opened
      exact Moment.attends sound first opened attended

/-- **No change is left unvalidated.**  Of an open document that is in no quiet period and not being
validated the diagnostics that were shown last are those of its current version. -/
theorem Run.last_shown_of_settled {history : List Moment} {course : Course}
    (run : Run history course) (loyal : ∀ moment ∈ history, moment.Loyal) {uri : String}
    {document : Document} (opened : course.documents.get? uri = some document)
    (settled : course.pending? uri = none)
    (unvalidated : course.schedule.running.get? uri = none) :
    (shown uri history).getLast? = some (some document.version) := by
  obtain ⟨start, begins, stretch⟩ := run
  have attended : ∀ document, start.documents.get? uri = some document →
      start.Attends [] uri document.version := by
    intro document opened
    rw [begins.documents] at opened
    cases opened
  cases stretch.attends begins.sound loyal attended document opened with
  | waits pending =>
      rw [settled] at pending
      cases pending
  | runs validates =>
      obtain ⟨ticket, running, -⟩ := validates
      exact absurd (unvalidated.symm.trans running) nofun
  | done last => exact last

end

section

open scoped Trial

private def untouched : Course :=
  ⟨Session.initial (FileStore.initial .allowed) (Surround.initial [] []), []⟩

private def noteOpens : Moment := ⟨_, _, _, .opened untouched "file:///w/a.ump" "class A {}" 1⟩

private def noteChanges : Moment := ⟨_, _, _, .edited noteOpens.after "file:///w/a.ump" [] 2⟩

private def noteRests : Moment :=
  ⟨_, _, _, .reported noteChanges.after (by decide +kernel) (.quiet 1 "file:///w/a.ump")⟩

private def noteEnds : Moment :=
  ⟨_, _, _, .reported noteRests.after (by decide +kernel)
    (.validation 3 "file:///w/a.ump" 2 .broken)⟩

/-- A document that was opened and changed, and whose validation broke off, is shown as being
without problems at its second version. -/
theorem last_shown_broken :
    Run [noteOpens, noteChanges, noteRests, noteEnds] noteEnds.after ∧
      (shown "file:///w/a.ump" [noteOpens, noteChanges, noteRests, noteEnds]).getLast? =
        some (some 2) := by
  have begins : untouched.Begins := ⟨rfl, rfl, ⟨_, _, rfl⟩, rfl⟩
  have run : Run [noteOpens, noteChanges, noteRests, noteEnds] noteEnds.after :=
    ⟨untouched, begins,
      .cons noteOpens (.cons noteChanges (.cons noteRests (.cons noteEnds (.nil _))))⟩
  have loyal : ∀ moment ∈ [noteOpens, noteChanges, noteRests, noteEnds], moment.Loyal := by
    simp only [List.forall_mem_cons]
    refine ⟨?_, ?_, ?_, ?_, fun _ member => absurd member List.not_mem_nil⟩ <;>
      intro ticket uri version ending happens gaveUp <;> cases happens
    cases gaveUp
  have opened : noteEnds.after.documents.get? "file:///w/a.ump" =
      some ⟨"file:///w/a.ump", some ⟨.root, ["w", "a.ump"]⟩, "class A {}", 2⟩ := by decide +kernel
  exact ⟨run, run.last_shown_of_settled loyal opened (by decide +kernel) (by decide +kernel)⟩

end

end Session

end ModelAssist
