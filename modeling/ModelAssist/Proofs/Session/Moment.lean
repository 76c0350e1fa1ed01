import ModelAssist.Proofs.Session.Course

/-!
# Moments of a course

What a step of a session does to the plans of its schedule: which documents are pending, which ones
changed in the shared quiet period, and which validations start.  A moment is a step with the
courses before and after it.

`Moment.effect` says once what a moment can do to a document.  A document passes a moment if it is
open, in no quiet period and not validated in it; which ones do, and that those in no quiet period
stay so, are read from the effects (`Moment.passes`, `Moment.stays_settled`).
-/

namespace ModelAssist

open Schedule (Job)

namespace Session

namespace Course

/-- The quiet period that a document is in. -/
def pending? (course : Course) (uri : String) : Option Ticket := course.schedule.pending.get? uri

def changed (course : Course) : List String := course.schedule.changed

def timer? (course : Course) : Option Ticket := course.schedule.dependentsTimer

/-- The validations know a version of exactly the open documents. -/
theorem isSome_versionOf [Host] (course : Course) (uri : String) :
    ((host.surroundings course.session).versionOf uri).isSome =
      (course.documents.get? uri).isSome := by
  change ((course.documents.get? uri).map (·.version)).isSome = _
  exact Option.isSome_map

@[simp] theorem documents_react [Host] (course : Course) (event : ScheduleEvent) :
    (course.react event).documents = course.documents := rfl

@[simp] theorem documents_drop (course : Course) (job : Job) :
    (course.drop job).documents = course.documents := rfl

variable [Host]

/-- A planned document is pending, and the others are as they were. -/
theorem pending?_react_schedule (course : Course) (uri other : String) (seconds : Option Float) :
    (course.react (.schedule uri seconds)).pending? other =
      if other = uri then some course.schedule.nextTicket else course.pending? other := by
  change ((course.schedule.pending.erase uri).insert uri _).get? other = _
  rw [OrderedMap.get?_insert]
  by_cases same : other = uri
  · rw [if_pos same, if_pos same]
  · rw [if_neg same, if_neg same, OrderedMap.get?_erase, if_neg same]
    rfl

/-- A document that others may import is among the changed ones. -/
theorem mem_changed_react_scheduleDependents (course : Course) (uri other : String) :
    other ∈ (course.react (.scheduleDependents uri)).changed ↔
      other = uri ∨ other ∈ course.changed := by
  change (other ∈ if course.schedule.changed.contains uri then course.schedule.changed
    else course.schedule.changed ++ [uri]) ↔ _
  split
  · next known =>
      rw [List.contains_iff_mem] at known
      constructor
      · exact Or.inr
      · rintro (rfl | old)
        · exact known
        · exact old
  · rw [List.mem_append, List.mem_singleton, or_comm]
    rfl

/-- A closed document is not pending, and the others are as they were. -/
theorem pending?_react_close (course : Course) (uri other : String) :
    (course.react (.close uri)).pending? other =
      if other = uri then none else course.pending? other :=
  OrderedMap.get?_erase _ _ _

/-- The end of the quiet period of a document. -/
theorem pending?_report_quiet {course : Course} (sound : course.Sound) {ticket : Ticket}
    {uri : String} (live : Job.quiet ticket uri ∈ course.jobs) (other : String) :
    ((course.drop (.quiet ticket uri)).react (.quiet ticket uri)).pending? other =
      if other = uri then none else course.pending? other := by
  have kept := Schedule.plans_start (host.surroundings course.session)
    (course.schedule.leaveQuiet ticket uri) uri
  have pending := congrArg (fun plans => plans.1.get? other) kept
  refine pending.trans ?_
  change (course.schedule.leaveQuiet ticket uri).pending.get? other = _
  rw [sound.core.leaveQuiet_eq live]
  exact OrderedMap.get?_erase _ _ _

/-- Nothing is validated because a document is planned, waits for its importers or is closed. -/
theorem validation_of_react {course : Course} {event : ScheduleEvent} {uri : String}
    (planning : event = .schedule uri none ∨ event = .scheduleDependents uri ∨ event = .close uri)
    {ticket : Ticket} {other : String} {version : Int}
    (live : Job.validation ticket other version ∈ (course.react event).jobs) :
    Job.validation ticket other version ∈ course.jobs := by
  refine Job.validation_mem_of_obeyAll ?_ live
  rcases planning with rfl | rfl | rfl
  · simp [Schedule.handle, Schedule.awaitQuiet]
  · simp [Schedule.handle, Schedule.awaitDependents]
  · simp [Schedule.handle, Schedule.close]

private theorem validation_not_mem {course : Course} (sound : course.Sound) {ticket : Ticket}
    (fresh : course.schedule.nextTicket ≤ ticket) (uri : String) (version : Int) :
    Job.validation ticket uri version ∉ course.jobs := by
  intro live
  have below := sound.core.ticket_lt _ live
  exact absurd fresh (Nat.not_le_of_lt below)

/-- An open document is validated when its quiet period ends. -/
theorem exists_validation_quiet {course : Course} (sound : course.Sound) {ticket : Ticket}
    {uri : String} (live : Job.quiet ticket uri ∈ course.jobs)
    (opened : (course.documents.get? uri).isSome) :
    ∃ number version,
      Job.validation number uri version ∈
          ((course.drop (.quiet ticket uri)).react (.quiet ticket uri)).jobs ∧
        Job.validation number uri version ∉ course.jobs := by
  rw [← isSome_versionOf] at opened
  obtain ⟨version, begun⟩ := Job.exists_validation_start
    (course.schedule.leaveQuiet ticket uri) (course.jobs.erase (.quiet ticket uri)) opened
  refine ⟨_, version, begun, validation_not_mem sound ?_ uri version⟩
  exact Nat.le_of_eq (congrArg Schedule.nextTicket (sound.core.leaveQuiet_eq live)).symm

/-- The open documents that the end of the shared quiet period asks for are validated. -/
theorem exists_validation_dependentsQuiet {course : Course} (sound : course.Sound)
    {ticket : Ticket} {uri : String}
    (asked : uri ∈ Schedule.affected (host.surroundings course.session) course.changed)
    (opened : (course.documents.get? uri).isSome) :
    ∃ number version,
      Job.validation number uri version ∈
          ((course.drop (.dependentsQuiet ticket)).react .dependentsQuiet).jobs ∧
        Job.validation number uri version ∉ course.jobs := by
  rw [← isSome_versionOf] at opened
  obtain ⟨number, version, fresh, begun⟩ := Job.exists_validation_startAll
    { course.schedule with changed := [], dependentsTimer := none }
    (course.jobs.erase (.dependentsQuiet ticket)) asked opened
  exact ⟨number, version, begun, validation_not_mem sound fresh uri version⟩

/-- Dependents that have gone quiet leave every document's own wait as it is. -/
theorem pending?_report_dependentsQuiet (course : Course) (ticket : Ticket) (uri : String) :
    ((course.drop (.dependentsQuiet ticket)).react .dependentsQuiet).pending? uri =
      course.pending? uri := by
  have kept := Schedule.plans_startAll (host.surroundings course.session)
    { course.schedule with changed := [], dependentsTimer := none }
    (Schedule.affected (host.surroundings course.session) course.schedule.changed)
  exact congrArg (fun plans => plans.1.get? uri) kept

/-- A validation that ends leaves every plan as it is. -/
theorem plans_report_validation (course : Course) (ticket : Ticket) (uri : String) (version : Int)
    (ending : ValidationEnd) :
    ((course.drop (.validation ticket uri version)).react
      (.ended ticket uri version ending)).schedule.plans = course.schedule.plans :=
  Schedule.plans_finish _ _ _ _ _ _

/-- Opening a document changes the workspace and lets the document wait for quiet. -/
theorem opened_eq (course : Course) (uri text : String) (version : Int) :
    ∃ workspace, course.opened uri text version =
        (course.withWorkspace workspace).react (.schedule uri none) ∧
      Amends course.workspace workspace (course.documents.openDocument uri text version) := by
  obtain ⟨workspace, sessionEq, amends⟩ := afterOpening_eq uri text version course.session
  refine ⟨workspace, ?_, amends⟩
  rw [opened, sessionEq]
  rfl

/-- Editing an open document changes the workspace and lets it and its dependents wait for quiet. -/
theorem edited_eq (course : Course) {uri : String} (known : (course.documents.get? uri).isSome)
    (changes : List TextChange) (version : Int) :
    ∃ workspace text, course.edited uri changes version =
        ((course.withWorkspace workspace).react (.schedule uri none)).react
          (.scheduleDependents uri) ∧
      Amends course.workspace workspace (course.documents.update uri text version) := by
  obtain ⟨document, found⟩ := Option.isSome_iff_exists.mp known
  obtain ⟨workspace, sessionEq, amends⟩ := afterEditing_eq uri
    (changes.foldl (fun text change => change.apply text) document.text) version course.session
  refine ⟨workspace, _, ?_, amends⟩
  simp only [edited, found, sessionEq]
  rfl

/-- Editing a document that is not open does nothing. -/
theorem edited_eq_self (course : Course) {uri : String} (absent : course.documents.get? uri = none)
    (changes : List TextChange) (version : Int) : course.edited uri changes version = course := by
  simp only [edited, absent]

/-- A document is closed, and then its importers are waited for if it has a path. -/
theorem closed_eq (course : Course) (uri : String) :
    ∃ first, Amends course.workspace first (course.documents.close uri) ∧
      match (course.documents.get? uri).bind (·.path) with
      | none => course.closed uri = (course.withWorkspace first).react (.close uri)
      | some _ => ∃ second, course.closed uri =
            (((course.withWorkspace first).react (.close uri)).withWorkspace second).react
              (.scheduleDependents uri) ∧
          Amends first second first.documents := by
  refine ⟨_, amends_documents course.workspace (course.documents.close uri), ?_⟩
  cases located : (course.documents.get? uri).bind (·.path) with
  | none =>
      simp only [closed, located]
      rfl
  | some path =>
      refine ⟨_, ?_, amends_documentClosed _ path⟩
      simp only [closed, located]
      rfl

/-- Closing a document touches the documents and the index of the workspace. -/
theorem workspace_closed (course : Course) (uri : String) :
    ∃ index, (course.closed uri).workspace =
      { course.workspace with documents := course.documents.close uri, index } := by
  obtain ⟨first, ⟨index, rfl, -⟩, closedEq⟩ := course.closed_eq uri
  split at closedEq
  · rw [closedEq]
    exact ⟨index, rfl⟩
  · obtain ⟨second, closedEq, index', rfl, -⟩ := closedEq
    rw [closedEq]
    exact ⟨index', rfl⟩

/-- A closed document is not open, and the others are as they were. -/
theorem get?_closed (course : Course) (uri other : String) :
    (course.closed uri).documents.get? other =
      if other = uri then none else course.documents.get? other := by
  obtain ⟨index, closedEq⟩ := course.workspace_closed uri
  change (course.closed uri).workspace.documents.get? other = _
  rw [closedEq]
  exact DocumentStore.get?_close _ _ _

/-- Closing a document ends its wait and no other. -/
theorem pending?_closed (course : Course) (uri other : String) :
    (course.closed uri).pending? other = if other = uri then none else course.pending? other := by
  obtain ⟨first, ⟨index, rfl, -⟩, closedEq⟩ := course.closed_eq uri
  have closed := pending?_react_close (course.withWorkspace { course.workspace with
    documents := course.documents.close uri, index }) uri other
  split at closedEq
  · rw [closedEq]
    exact closed
  · obtain ⟨second, closedEq, index', rfl, -⟩ := closedEq
    rw [closedEq]
    exact closed

end Course

variable [Host]

/-- A step of a course. -/
structure Moment where
  before : Course
  occurrence : Course.Occurrence
  after : Course
  step : Course.Step before occurrence after

namespace Moment

/-- Holds if an open document is changed. -/
def Edits (uri : String) (moment : Moment) : Prop :=
  (moment.before.documents.get? uri).isSome ∧
    ∃ changes version, moment.occurrence = .edited uri changes version

/-- Holds if a document is opened or changed, which begins a quiet period of its own. -/
def Plans (uri : String) (moment : Moment) : Prop :=
  moment.Edits uri ∨ ∃ text version, moment.occurrence = .opened uri text version

/-- Holds if a validation of a document starts. -/
def Starts (uri : String) (moment : Moment) : Prop :=
  ∃ ticket version, Job.validation ticket uri version ∈ moment.after.jobs ∧
    Job.validation ticket uri version ∉ moment.before.jobs

/-- Holds unless the shared quiet period ends and a document is among those to be validated. -/
def Spares (uri : String) (moment : Moment) : Prop :=
  moment.occurrence = .reported .dependentsQuiet →
    uri ∉ Schedule.affected (host.surroundings moment.before.session) moment.before.changed

/-- Holds if a document is open and in no quiet period of its own, and neither begins one nor is
validated after the shared one. -/
structure Passes (uri : String) (document : Document) (moment : Moment) : Prop where
  opened : moment.before.documents.get? uri = some document
  settled : moment.before.pending? uri = none
  unplanned : ¬ moment.Plans uri
  spared : moment.Spares uri

/-- What a moment does to a document: this begins a quiet period, is closed, ends its quiet period,
or goes on as it was, in which case it is validated if the end of the shared period asks for it. -/
inductive Effect (uri : String) (moment : Moment) : Prop
  | plans (plans : moment.Plans uri) (pending : (moment.after.pending? uri).isSome)
  | closes (absent : moment.after.documents.get? uri = none)
      (settled : moment.after.pending? uri = none) (unstarted : ¬ moment.Starts uri)
  | rests (pending : (moment.before.pending? uri).isSome)
      (kept : moment.after.documents.get? uri = moment.before.documents.get? uri)
      (starts : (moment.before.documents.get? uri).isSome → moment.Starts uri)
      (settled : moment.after.pending? uri = none)
  | leaves (unplanned : ¬ moment.Plans uri)
      (kept : moment.after.documents.get? uri = moment.before.documents.get? uri)
      (pending : moment.after.pending? uri = moment.before.pending? uri)
      (unspared : moment.Starts uri → ¬ moment.Spares uri)
      (starts : (moment.before.documents.get? uri).isSome → ¬ moment.Spares uri →
        moment.Starts uri)

private theorem not_starts {moment : Moment} {uri : String} (older : ∀ ticket version,
    Job.validation ticket uri version ∈ moment.after.jobs →
      Job.validation ticket uri version ∈ moment.before.jobs) : ¬ moment.Starts uri := by
  rintro ⟨ticket, version, live, fresh⟩
  exact fresh (older ticket version live)

private theorem not_plans {moment : Moment} {uri : String}
    (unedited : ∀ changes version, moment.occurrence ≠ .edited uri changes version)
    (unopened : ∀ text version, moment.occurrence ≠ .opened uri text version) :
    ¬ moment.Plans uri := by
  rintro (⟨_, changes, version, same⟩ | ⟨text, version, same⟩)
  · exact unedited changes version same
  · exact unopened text version same

/-- A moment leaves a document alone if it neither plans nor starts its validation, as long as it is
not the end of the shared quiet period. -/
private theorem Effect.of_unstarted {moment : Moment} {uri : String}
    (unplanned : ¬ moment.Plans uri)
    (kept : moment.after.documents.get? uri = moment.before.documents.get? uri)
    (pending : moment.after.pending? uri = moment.before.pending? uri)
    (unstarted : ¬ moment.Starts uri)
    (shared : moment.occurrence ≠ .reported .dependentsQuiet) : moment.Effect uri :=
  .leaves unplanned kept pending (fun starts => absurd starts unstarted)
    (fun _ unspared => absurd (fun rests => absurd rests shared) unspared)

private theorem effect_opened (course : Course) (other text : String) (version : Int)
    (uri : String) : Effect uri ⟨_, _, _, .opened course other text version⟩ := by
  obtain ⟨workspace, openedEq, index, rfl, -⟩ := course.opened_eq other text version
  have pending : (course.opened other text version).pending? uri =
      if uri = other then some course.schedule.nextTicket else course.pending? uri := by
    rw [openedEq]
    exact Course.pending?_react_schedule _ other uri none
  by_cases same : uri = other
  · rw [if_pos same] at pending
    exact .plans (Or.inr ⟨text, version, by rw [same]⟩) (by simp only [pending]; rfl)
  · rw [if_neg same] at pending
    refine .of_unstarted (not_plans (fun _ _ => nofun) ?_) ?_ pending
      (not_starts fun ticket number live => ?_) nofun
    · rintro _ _ opened
      cases opened
      exact same rfl
    · simp only [openedEq]
      exact DocumentStore.get?_openDocument_of_ne _ _ _ _ same
    · simp only [openedEq] at live
      exact Course.validation_of_react (Or.inl rfl) live

private theorem effect_edited (course : Course) (other : String) (changes : List TextChange)
    (version : Int) (uri : String) :
    Effect uri ⟨_, _, _, .edited course other changes version⟩ := by
  cases known : course.documents.get? other with
  | none =>
      have unedited := course.edited_eq_self known changes version
      refine .of_unstarted ?_ ?_ ?_ (not_starts fun ticket number live => ?_) nofun
      · rintro (⟨isOpen, _, _, edited⟩ | ⟨_, _, edited⟩)
        · cases edited
          simp only [known] at isOpen
          cases isOpen
        · cases edited
      · simp only [unedited]
      · simp only [unedited]
      · simp only [unedited] at live
        exact live
  | some document =>
      have isOpen : (course.documents.get? other).isSome := by rw [known]; rfl
      obtain ⟨workspace, text, editedEq, index, rfl, -⟩ := course.edited_eq isOpen changes version
      have pending : (course.edited other changes version).pending? uri =
          if uri = other then some course.schedule.nextTicket else course.pending? uri := by
        rw [editedEq]
        exact Course.pending?_react_schedule _ other uri none
      by_cases same : uri = other
      · rw [if_pos same] at pending
        exact .plans (Or.inl ⟨same ▸ isOpen, changes, version, by rw [same]⟩)
          (by simp only [pending]; rfl)
      · rw [if_neg same] at pending
        refine .of_unstarted (not_plans ?_ (fun _ _ => nofun)) ?_ pending
          (not_starts fun ticket number live => ?_) nofun
        · rintro _ _ edited
          cases edited
          exact same rfl
        · simp only [editedEq]
          exact DocumentStore.get?_update_of_ne _ _ _ _ same
        · simp only [editedEq] at live
          exact Course.validation_of_react (Or.inl rfl)
            (Course.validation_of_react (Or.inr (Or.inl rfl)) live)

private theorem effect_closed (course : Course) (other uri : String) :
    Effect uri ⟨_, _, _, .closed course other⟩ := by
  have documents := course.get?_closed other uri
  have pending := course.pending?_closed other uri
  have unstarted : ¬ Starts uri ⟨_, _, _, .closed course other⟩ := by
    refine not_starts fun ticket number live => ?_
    obtain ⟨first, _, closedEq⟩ := course.closed_eq other
    split at closedEq
    · simp only [closedEq] at live
      exact Course.validation_of_react (Or.inr (Or.inr rfl)) live
    · obtain ⟨second, closedEq, _⟩ := closedEq
      simp only [closedEq] at live
      exact Course.validation_of_react (Or.inr (Or.inr rfl))
        (Course.validation_of_react (Or.inr (Or.inl rfl)) live)
  by_cases same : uri = other
  · rw [if_pos same] at documents pending
    exact .closes documents pending unstarted
  · rw [if_neg same] at documents pending
    exact .of_unstarted (not_plans (fun _ _ => nofun) (fun _ _ => nofun)) documents pending
      unstarted nofun

private theorem effect_reported {course : Course} (sound : course.Sound) {job : Job}
    (live : job ∈ course.jobs) {event : ScheduleEvent} (reports : job.Reports event)
    (uri : String) : Effect uri ⟨_, _, _, .reported course live reports⟩ := by
  have unplanned : ¬ Plans uri ⟨_, _, _, .reported course live reports⟩ :=
    not_plans (fun _ _ => nofun) (fun _ _ => nofun)
  cases reports with
  | quiet ticket other =>
      have pending := Course.pending?_report_quiet sound live uri
      by_cases same : uri = other
      · subst same
        rw [if_pos rfl] at pending
        have waiting := (sound.core.pending_iff uri ticket).mpr live
        exact .rests (Option.isSome_iff_exists.mpr ⟨ticket, waiting⟩) rfl
          (Course.exists_validation_quiet sound live) pending
      · rw [if_neg same] at pending
        refine .of_unstarted unplanned rfl pending (not_starts fun number version begun => ?_) nofun
        rcases Job.validation_mem_start begun with old | same'
        · exact List.mem_of_mem_erase old
        · exact absurd same' same
  | dependentsQuiet ticket =>
      refine .leaves unplanned rfl (course.pending?_report_dependentsQuiet ticket uri) ?_ ?_
      · rintro ⟨number, version, begun, fresh⟩ spared
        rcases Job.validation_mem_startAll begun with old | asked
        · exact fresh (List.mem_of_mem_erase old)
        · exact spared rfl asked
      · intro isOpen unspared
        obtain ⟨_, asked⟩ := not_forall.mp unspared
        exact Course.exists_validation_dependentsQuiet sound (not_not.mp asked) isOpen
  | validation ticket other version ending =>
      have kept := congrArg (fun plans => plans.1.get? uri)
        (course.plans_report_validation ticket other version ending)
      refine .of_unstarted unplanned rfl kept (not_starts fun number version' begun => ?_) nofun
      have jobs := Schedule.Job.obeyAll_finish (host.surroundings course.session)
        course.schedule ticket other version ending
        (course.jobs.erase (.validation ticket other version))
      have older : Job.validation number uri version' ∈
          course.jobs.erase (.validation ticket other version) := jobs ▸ begun
      exact List.mem_of_mem_erase older

/-- **Every moment has one of these effects on a document.** -/
theorem effect {moment : Moment} (sound : moment.before.Sound) (uri : String) :
    moment.Effect uri := by
  obtain ⟨before, occurrence, after, step⟩ := moment
  cases step with
  | opened other text version => exact effect_opened before other text version uri
  | edited other changes version => exact effect_edited before other changes version uri
  | closed other => exact effect_closed before other uri
  | reported live reports => exact effect_reported sound live reports uri
  | indexed file content =>
      obtain ⟨index, indexedEq, -⟩ := Course.amends_indexFile before.workspace file content
      refine .of_unstarted (not_plans (fun _ _ => nofun) (fun _ _ => nofun)) ?_ rfl
        (not_starts fun _ _ live => live) nofun
      exact congrArg (fun workspace => workspace.documents.get? uri) indexedEq
  | stored files =>
      exact .of_unstarted (not_plans (fun _ _ => nofun) (fun _ _ => nofun)) rfl rfl
        (not_starts fun _ _ live => live) nofun

variable {moment : Moment} (sound : moment.before.Sound) {uri : String}
include sound

/-- A document that is open and in no quiet period after a moment, and of which no validation
started in it, passed the moment. -/
theorem passes {document : Document} (opened : moment.after.documents.get? uri = some document)
    (settled : moment.after.pending? uri = none) (idle : ¬ moment.Starts uri) :
    moment.Passes uri document := by
  have isOpen := Option.isSome_iff_exists.mpr ⟨document, opened⟩
  cases effect sound uri with
  | plans plans pending =>
      rw [settled] at pending
      cases pending
  | closes absent =>
      rw [absent] at opened
      cases opened
  | rests _ kept starts => exact absurd (starts (kept ▸ isOpen)) idle
  | leaves unplanned kept pending _ starts =>
      refine ⟨kept ▸ opened, pending ▸ settled, unplanned, ?_⟩
      by_contra unspared
      exact idle (starts (kept ▸ isOpen) unspared)

/-- A document in no quiet period that begins none and is spared is not validated, and stays in no
quiet period. -/
theorem stays_settled (settled : moment.before.pending? uri = none)
    (unplanned : ¬ moment.Plans uri) (spared : moment.Spares uri) :
    ¬ moment.Starts uri ∧ moment.after.pending? uri = none := by
  cases effect sound uri with
  | plans plans => exact absurd plans unplanned
  | closes _ settled' unstarted => exact ⟨unstarted, settled'⟩
  | rests pending =>
      rw [settled] at pending
      cases pending
  | leaves _ _ pending unspared =>
      exact ⟨fun starts => unspared starts spared, pending.trans settled⟩

end Moment

end Session

end ModelAssist
