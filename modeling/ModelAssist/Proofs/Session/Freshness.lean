import ModelAssist.Proofs.Session.Moment

/-!
# Fresh importers

When a document that imports another one was validated since that one was changed last.  It was,
once nothing is going on, unless the change was overlooked: the importer was in no quiet period of
its own at that moment, began none since, and was spared by every end of the shared one.

That happens if the importer itself changed in the shared quiet period before the change, since the
documents that changed in it are not validated at its end, and its own quiet period was over by
then.  Otherwise what the importer reaches has shifted since without a change or a close of another
document.
-/

namespace ModelAssist

open Schedule (Job)

namespace Session

/-- The moments that lead from a course to another one. -/
inductive Stretch [Host] : Course → List Moment → Course → Prop
  | nil (course : Course) : Stretch course [] course
  | cons (moment : Moment) {rest : List Moment} {finish : Course}
      (stretch : Stretch moment.after rest finish) : Stretch moment.before (moment :: rest) finish

/-- Holds of a session in which nothing has happened yet. -/
structure Course.Begins (course : Course) : Prop where
  documents : course.documents = ∅
  index : course.workspace.index = ∅
  schedule : ∃ quietSeconds dependentSeconds,
    course.schedule = Schedule.initial quietSeconds dependentSeconds
  jobs : course.jobs = []

/-- The histories of the courses of a session. -/
def Run [Host] (history : List Moment) (course : Course) : Prop :=
  ∃ start : Course, start.Begins ∧ Stretch start history course

/-- Holds if no document is in a quiet period or being validated and there is no shared quiet
period. -/
structure Course.Idle (course : Course) : Prop where
  pending : course.schedule.pending = ∅
  running : course.schedule.running = ∅
  timer : course.timer? = none

section

variable [Host]

/-- Holds if one document was validated after every change of another one. -/
def Fresh (importer imported : String) (history : List Moment) : Prop :=
  ∀ earlier change later, history = earlier ++ change :: later → change.Edits imported →
    ∃ moment ∈ later, moment.Starts importer

/-- Holds if a change of one document passed another one over: this was in no quiet period of its
own at that moment, began none later, and was spared by every end of the shared one. -/
structure PassedOver (importer imported : String) (change : Moment) (later : List Moment) :
    Prop where
  /-- The document is changed. -/
  edits : change.Edits imported
  /-- The other one is in no quiet period of its own. -/
  settled : change.after.pending? importer = none
  /-- It begins none later. -/
  unplanned : ∀ moment ∈ later, ¬ moment.Plans importer
  /-- It is spared by every end of the shared one. -/
  spared : ∀ moment ∈ later, moment.Spares importer

/-- Holds if some change of one document passed another one over. -/
def Overlooked (importer imported : String) (history : List Moment) : Prop :=
  ∃ earlier change later,
    history = earlier ++ change :: later ∧ PassedOver importer imported change later

/-- Holds if an open document at another path is changed or closed. -/
def Moment.Cascades (path : Path) (moment : Moment) : Prop :=
  ∃ uri, Uri.path? uri ≠ some path ∧
    (moment.Edits uri ∨
      (moment.before.documents.get? uri).isSome ∧ moment.occurrence = .closed uri)

/-- Holds if what a text at a path reaches shifts though no open document at another path is changed
or closed: a document is opened with a text of its own, a file changes on disk, or a document under
another name of the same path is changed or closed. -/
def Moment.ShiftsSilently (path : Path) (text : String) (moment : Moment) : Prop :=
  ¬ moment.Cascades path ∧
    ∃ target, ¬ (target ∈ moment.before.workspace.reachable path text ↔
      target ∈ moment.after.workspace.reachable path text)

namespace Stretch

variable {start finish : Course} {moments : List Moment}

/-- A stretch of moments is divided wherever its moments are. -/
theorem divide {first second : List Moment} (stretch : Stretch start (first ++ second) finish) :
    ∃ middle, Stretch start first middle ∧ Stretch middle second finish := by
  induction first generalizing start with
  | nil => exact ⟨start, .nil start, stretch⟩
  | cons moment rest ih =>
      cases stretch with
      | cons _ stretch =>
          obtain ⟨middle, before, after⟩ := ih stretch
          exact ⟨middle, .cons moment before, after⟩

/-- A stretch that sets out from a sound course ends in one. -/
theorem sound (stretch : Stretch start moments finish) (sound : start.Sound) : finish.Sound := by
  induction stretch with
  | nil => exact sound
  | cons moment stretch ih => exact ih (moment.step.sound sound)

/-- A document that is open and in no quiet period at the end of a stretch, and of which no
validation started in it, passed all its moments. -/
theorem passes (stretch : Stretch start moments finish) (sound : start.Sound) {uri : String}
    {document : Document} (opened : finish.documents.get? uri = some document)
    (settled : finish.pending? uri = none) (idle : ∀ moment ∈ moments, ¬ moment.Starts uri) :
    (start.documents.get? uri = some document ∧ start.pending? uri = none) ∧
      ∀ moment ∈ moments, moment.Passes uri document := by
  induction stretch with
  | nil => exact ⟨⟨opened, settled⟩, fun moment member => absurd member List.not_mem_nil⟩
  | cons moment stretch ih =>
      obtain ⟨idleFirst, idle⟩ := List.forall_mem_cons.mp idle
      obtain ⟨⟨opened, settled⟩, later⟩ := ih (moment.step.sound sound) opened settled idle
      have passes := Moment.passes sound opened settled idleFirst
      exact ⟨⟨passes.opened, passes.settled⟩, List.forall_mem_cons.mpr ⟨passes, later⟩⟩

/-- A document that passes all moments of a stretch and is open at its end is open at its start. -/
theorem opened (stretch : Stretch start moments finish) {uri : String} {document : Document}
    (passes : ∀ moment ∈ moments, moment.Passes uri document)
    (opened : finish.documents.get? uri = some document) :
    start.documents.get? uri = some document := by
  cases stretch with
  | nil => exact opened
  | cons moment _ => exact (passes moment List.mem_cons_self).opened

/-- A document in no quiet period that begins none and is always spared is not validated. -/
theorem not_starts (stretch : Stretch start moments finish) (sound : start.Sound) {uri : String}
    (settled : start.pending? uri = none) (unplanned : ∀ moment ∈ moments, ¬ moment.Plans uri)
    (spared : ∀ moment ∈ moments, moment.Spares uri) :
    ∀ moment ∈ moments, ¬ moment.Starts uri := by
  induction stretch with
  | nil => exact fun moment member => absurd member List.not_mem_nil
  | cons moment stretch ih =>
      obtain ⟨unplannedFirst, unplanned⟩ := List.forall_mem_cons.mp unplanned
      obtain ⟨sparedFirst, spared⟩ := List.forall_mem_cons.mp spared
      obtain ⟨idle, settled⟩ := Moment.stays_settled sound settled unplannedFirst sparedFirst
      exact List.forall_mem_cons.mpr
        ⟨idle, ih (moment.step.sound sound) settled unplanned spared⟩

end Stretch

/-- A course is sound from its beginning. -/
theorem Course.Begins.sound {course : Course} (begins : course.Begins) : course.Sound := by
  obtain ⟨quietSeconds, dependentSeconds, schedule⟩ := begins.schedule
  refine ⟨?_, ?_, ?_⟩
  · rw [schedule, begins.jobs]
    exact Schedule.Course.sound_initial quietSeconds dependentSeconds
  · rw [begins.documents]
    exact DocumentStore.coherent_empty
  · intro grammar _
    rw [begins.index]
    exact SymbolIndex.Reachable.empty grammar

/-- An open model that reaches a file at another path is among the documents that import it. -/
theorem Course.mem_dependents {course : Course} (sound : course.Sound) {uri other : String}
    {document : Document} (opened : course.documents.get? uri = some document) {path target : Path}
    (located : document.path = some path) (isModel : path.suffix = modelSuffix)
    (named : Uri.path? other = some target) (elsewhere : path ≠ target)
    (reaches : target ∈ course.workspace.reachable path document.text) :
    uri ∈ (host.surroundings course.session).dependentsOf other := by
  have normal := (ImportGraph.isNormal_of_mem_reachable reaches).normalize_eq
  change uri ∈ course.session.dependents other
  simp only [dependents, named]
  refine List.mem_map.mpr ⟨document, List.mem_filter.mpr ⟨?_, ?_⟩, ?_⟩
  · exact OrderedMap.mem_values_of_get? opened
  · have contained : target ∈
        course.session.bench.workspace.imports.reachable path document.text path.parent := reaches
    simpa [Workspace.dependsOn, located, normal, elsewhere, isModel, ImportGraph.imports]
      using contained
  · exact (sound.coherent.named uri document opened).1

/-- What a text reaches does not shift by a change of an open document that it does not reach. -/
theorem Course.reachable_edited {course : Course} (sound : course.Sound) {uri : String}
    (known : (course.documents.get? uri).isSome) {changes : List TextChange} {version : Int}
    {path : Path} {text : String}
    (avoids : ∀ other ∈ (course.edited uri changes version).workspace.reachable path text,
      Uri.path? uri ≠ some other) :
    (course.edited uri changes version).workspace.reachable path text =
      course.workspace.reachable path text := by
  have after := (Step.edited course uri changes version).sound sound
  obtain ⟨workspace, text', editedEq, index, rfl, -⟩ := course.edited_eq known changes version
  rw [editedEq] at avoids after ⊢
  exact Workspace.reachable_congr after.reachable sound.reachable rfl rfl
    (fun other kept => sound.coherent.textFor?_update known text' version kept) avoids

/-- What a text reaches does not shift by the close of a document that it does not reach then. -/
theorem Course.reachable_closed {course : Course} (sound : course.Sound) {uri : String}
    {path : Path} {text : String}
    (avoids : ∀ other ∈ (course.closed uri).workspace.reachable path text,
      Uri.path? uri ≠ some other) :
    (course.closed uri).workspace.reachable path text = course.workspace.reachable path text := by
  have after := (Step.closed course uri).sound sound
  obtain ⟨index, closedEq⟩ := course.workspace_closed uri
  have reachable := after.reachable
  rw [closedEq] at avoids reachable ⊢
  exact Workspace.reachable_congr reachable sound.reachable rfl rfl
    (fun other kept => sound.coherent.textFor?_close uri kept) avoids

/-- Holds if a document did not change in the shared quiet period, and is waiting for the end of
this whenever it reaches a given file: it also reaches one at another path that changed. -/
structure Course.Awaits (course : Course) (uri : String) (path : Path) (text : String)
    (target : Path) : Prop where
  unchanged : uri ∉ course.changed
  /-- If the document reaches the file, it waits for one that changed. -/
  awaited : target ∈ course.workspace.reachable path text →
    course.timer?.isSome ∧ ∃ other ∈ course.changed, ∃ file, Uri.path? other = some file ∧
      path ≠ file ∧ file ∈ course.workspace.reachable path text

namespace Course.Awaits

variable {before after : Course} {uri : String} {path target : Path} {text : String}
  (awaits : before.Awaits uri path text target)
include awaits

/-- A document goes on waiting while nothing changes and nothing shifts. -/
theorem keep (changed : after.changed = before.changed) (timer : after.timer? = before.timer?)
    (unshifted : ∀ file, file ∈ before.workspace.reachable path text ↔
      file ∈ after.workspace.reachable path text) : after.Awaits uri path text target := by
  refine ⟨changed ▸ awaits.unchanged, fun reaches => ?_⟩
  obtain ⟨waiting, other, member, file, named, elsewhere, reaches'⟩ :=
    awaits.awaited ((unshifted target).mpr reaches)
  exact ⟨timer ▸ waiting, other, changed ▸ member, file, named, elsewhere,
    (unshifted file).mp reaches'⟩

/-- A document goes on waiting when another one changes: either it now reaches that one, or nothing
shifts. -/
theorem cascade {changedUri : String} (different : uri ≠ changedUri)
    (changed : ∀ other, other ∈ after.changed ↔ other = changedUri ∨ other ∈ before.changed)
    (timer : after.timer?.isSome)
    (unshifted : ∀ file, Uri.path? changedUri = some path ∨
        (∀ other ∈ after.workspace.reachable path text, Uri.path? changedUri ≠ some other) →
      (file ∈ before.workspace.reachable path text ↔ file ∈ after.workspace.reachable path text)) :
    after.Awaits uri path text target := by
  refine ⟨?_, fun reaches => ⟨timer, ?_⟩⟩
  · rw [changed, not_or]
    exact ⟨different, awaits.unchanged⟩
  · by_cases avoided : Uri.path? changedUri = some path ∨
        ∀ other ∈ after.workspace.reachable path text, Uri.path? changedUri ≠ some other
    · obtain ⟨_, other, member, file, named, elsewhere, reaches'⟩ :=
        awaits.awaited ((unshifted target avoided).mpr reaches)
      exact ⟨other, (changed other).mpr (Or.inr member), file, named, elsewhere,
        (unshifted file avoided).mp reaches'⟩
    · simp only [not_or, not_forall, not_not] at avoided
      obtain ⟨elsewhere, file, reaches', named⟩ := avoided
      exact ⟨changedUri, (changed changedUri).mpr (Or.inl rfl), file, named,
        fun same => elsewhere (same ▸ named), reaches'⟩

end Course.Awaits

/-- A changed document is among the changed ones, and the shared quiet period begins anew. -/
theorem Course.changed_edited (course : Course) {uri : String}
    (known : (course.documents.get? uri).isSome) (changes : List TextChange) (version : Int) :
    (∀ other, other ∈ (course.edited uri changes version).changed ↔
        other = uri ∨ other ∈ course.changed) ∧
      (course.edited uri changes version).timer?.isSome := by
  obtain ⟨workspace, text, editedEq, -⟩ := course.edited_eq known changes version
  rw [editedEq]
  exact ⟨mem_changed_react_scheduleDependents _ uri, rfl⟩

/-- A closed document with a path is among the changed ones, and the shared quiet period begins
anew; the close of another document changes neither. -/
theorem Course.changed_closed (course : Course) (uri : String) :
    match (course.documents.get? uri).bind (·.path) with
    | none => (course.closed uri).changed = course.changed ∧
        (course.closed uri).timer? = course.timer?
    | some _ => (∀ other, other ∈ (course.closed uri).changed ↔
          other = uri ∨ other ∈ course.changed) ∧ (course.closed uri).timer?.isSome := by
  obtain ⟨first, _, closedEq⟩ := course.closed_eq uri
  cases located : (course.documents.get? uri).bind (·.path) with
  | none =>
      simp only [located] at closedEq
      rw [closedEq]
      exact ⟨rfl, rfl⟩
  | some path =>
      simp only [located] at closedEq
      obtain ⟨second, closedEq, _⟩ := closedEq
      rw [closedEq]
      exact ⟨mem_changed_react_scheduleDependents _ uri, rfl⟩

/-- An importer is fresh unless a change was overlooked, once nothing is going on. -/
theorem Run.fresh_iff {history : List Moment} {course : Course} (run : Run history course)
    (idle : course.Idle) {importer imported : String}
    (opened : (course.documents.get? importer).isSome) :
    Fresh importer imported history ↔ ¬ Overlooked importer imported history := by
  obtain ⟨start, begins, stretch⟩ := run
  obtain ⟨document, opened⟩ := Option.isSome_iff_exists.mp opened
  have settled : course.pending? importer = none := by
    rw [Course.pending?, idle.pending]
    rfl
  constructor
  · rintro fresh ⟨earlier, change, later, rfl, passed⟩
    obtain ⟨middle, before, after⟩ := stretch.divide
    cases after with
    | cons _ after =>
        obtain ⟨moment, member, starts⟩ := fresh earlier change later rfl passed.edits
        exact after.not_starts (change.step.sound (before.sound begins.sound)) passed.settled
          passed.unplanned passed.spared moment member starts
  · intro noticed earlier change later split edits
    by_contra stale
    have unstarted : ∀ moment ∈ later, ¬ moment.Starts importer :=
      fun moment member starts => stale ⟨moment, member, starts⟩
    obtain ⟨middle, before, after⟩ := (split ▸ stretch).divide
    cases after with
    | cons _ after =>
        obtain ⟨⟨_, settled⟩, passes⟩ :=
          after.passes (change.step.sound (before.sound begins.sound)) opened settled unstarted
        exact noticed ⟨earlier, change, later, split, edits, settled,
          fun moment member => (passes moment member).unplanned,
          fun moment member => (passes moment member).spared⟩

namespace Course.Awaits

variable {course : Course} (sound : course.Sound) {uri : String} {path target : Path}
  {text : String} (awaits : course.Awaits uri path text target)
include sound awaits

/-- A document goes on waiting when an open one changes, unless what it reaches shifts by a change
at its own path. -/
theorem edited {other : String} (isOpen : (course.documents.get? other).isSome)
    (changes : List TextChange) (version : Int) (different : uri ≠ other)
    (unshifted : Uri.path? other = some path → ∀ file,
      file ∈ course.workspace.reachable path text ↔
        file ∈ (course.edited other changes version).workspace.reachable path text) :
    (course.edited other changes version).Awaits uri path text target := by
  obtain ⟨changed, timer⟩ := course.changed_edited isOpen changes version
  refine awaits.cascade different changed timer fun file reason => ?_
  rcases reason with twin | avoids
  · exact unshifted twin file
  · rw [Course.reachable_edited sound isOpen avoids]

/-- A document goes on waiting when an open one is closed, unless what it reaches shifts by a close
at its own path. -/
theorem closed {other : String} {document : Document}
    (known : course.documents.get? other = some document) (different : uri ≠ other)
    (unshifted : Uri.path? other = some path → ∀ file,
      file ∈ course.workspace.reachable path text ↔
        file ∈ (course.closed other).workspace.reachable path text) :
    (course.closed other).Awaits uri path text target := by
  have changes := course.changed_closed other
  have located := (sound.coherent.named other document known).2
  simp only [known, Option.bind_some, located] at changes
  cases named : Uri.path? other with
  | none =>
      simp only [named] at changes
      refine awaits.keep changes.1 changes.2 ?_
      rw [Course.reachable_closed sound fun file _ same => nomatch named.symm.trans same]
      exact fun _ => Iff.rfl
  | some own =>
      simp only [named] at changes
      refine awaits.cascade different changes.1 changes.2 fun file reason => ?_
      rcases reason with twin | avoids
      · exact unshifted twin file
      · rw [Course.reachable_closed sound avoids]

/-- A document goes on waiting when a job reports, unless it is validated after the shared quiet
period. -/
theorem reported {job : Job} (live : job ∈ course.jobs) {event : ScheduleEvent}
    (reports : job.Reports event) {document : Document}
    (opened : course.documents.get? uri = some document) (located : document.path = some path)
    (isModel : path.suffix = modelSuffix) (same : document.text = text)
    (spared : event = .dependentsQuiet →
      uri ∉ Schedule.affected (host.surroundings course.session) course.changed) :
    ((course.drop job).react event).Awaits uri path text target := by
  subst same
  cases reports with
  | quiet ticket other =>
      have kept := Schedule.plans_start (host.surroundings course.session)
        (course.schedule.leaveQuiet ticket other) other
      have left := sound.core.leaveQuiet_eq live
      exact awaits.keep ((congrArg (·.2.1) kept).trans (by rw [left]; rfl))
        ((congrArg (·.2.2) kept).trans (by rw [left]; rfl)) fun file => Iff.rfl
  | dependentsQuiet ticket =>
      have kept := Schedule.plans_startAll (host.surroundings course.session)
        { course.schedule with changed := [], dependentsTimer := none }
        (Schedule.affected (host.surroundings course.session) course.schedule.changed)
      have changed : ((course.drop (.dependentsQuiet ticket)).react .dependentsQuiet).changed =
          [] := congrArg (·.2.1) kept
      refine ⟨by rw [changed]; exact List.not_mem_nil, fun reaches => ?_⟩
      -- The document waits for one that changed, so it would have been validated.
      obtain ⟨_, other, member, file, named, elsewhere, reaches'⟩ := awaits.awaited reaches
      have imports := Course.mem_dependents sound opened located isModel named elsewhere reaches'
      exact absurd (Schedule.mem_affected.mpr ⟨⟨other, member, imports⟩, awaits.unchanged⟩)
        (spared rfl)
  | validation ticket other version ending =>
      have kept := course.plans_report_validation ticket other version ending
      exact awaits.keep (congrArg (·.2.1) kept) (congrArg (·.2.2) kept) fun file => Iff.rfl

end Course.Awaits

private theorem Moment.not_cascades {path : Path} {moment : Moment}
    (unedited : ∀ uri changes version, moment.occurrence ≠ .edited uri changes version)
    (unclosed : ∀ uri, moment.occurrence ≠ .closed uri) : ¬ moment.Cascades path := by
  rintro ⟨uri, _, ⟨_, changes, version, same⟩ | ⟨_, same⟩⟩
  · exact unedited uri changes version same
  · exact unclosed uri same

/-- A document that passes a moment goes on waiting, unless what it reaches shifts silently. -/
theorem Moment.awaits {moment : Moment} (sound : moment.before.Sound) {uri : String}
    {document : Document} (passes : moment.Passes uri document)
    (opened : moment.after.documents.get? uri = some document) {path target : Path}
    (located : document.path = some path) (isModel : path.suffix = modelSuffix)
    (awaits : moment.before.Awaits uri path document.text target)
    (loud : ¬ moment.ShiftsSilently path document.text) :
    moment.after.Awaits uri path document.text target := by
  obtain ⟨before, occurrence, after, step⟩ := moment
  simp only at sound opened awaits ⊢
  have unshifted : ¬ Moment.Cascades path ⟨before, occurrence, after, step⟩ → ∀ file,
      file ∈ before.workspace.reachable path document.text ↔
        file ∈ after.workspace.reachable path document.text := by
    intro quiet file
    by_contra shifted
    exact loud ⟨quiet, file, shifted⟩
  cases step with
  | opened other text version =>
      obtain ⟨workspace, openedEq, -⟩ := before.opened_eq other text version
      refine awaits.keep (by rw [openedEq]; rfl) (by rw [openedEq]; rfl) (unshifted ?_)
      exact Moment.not_cascades (fun _ _ _ => nofun) (fun _ => nofun)
  | edited other changes version =>
      cases known : before.documents.get? other with
      | none =>
          rw [before.edited_eq_self known]
          exact awaits
      | some document' =>
          have isOpen : (before.documents.get? other).isSome := by rw [known]; rfl
          have different : uri ≠ other := by
            rintro rfl
            exact passes.unplanned (Or.inl ⟨isOpen, changes, version, rfl⟩)
          refine awaits.edited sound isOpen changes version different fun twin => unshifted ?_
          rintro ⟨name, elsewhere, ⟨_, _, _, same⟩ | ⟨_, same⟩⟩
          · cases same
            exact elsewhere twin
          · cases same
  | closed other =>
      cases known : before.documents.get? other with
      | none =>
          have changes := before.changed_closed other
          simp only [known, Option.bind_none] at changes
          refine awaits.keep changes.1 changes.2 (unshifted ?_)
          rintro ⟨name, _, ⟨_, _, _, same⟩ | ⟨isOpen, same⟩⟩
          · cases same
          · cases same
            rw [known] at isOpen
            cases isOpen
      | some document' =>
          have different : uri ≠ other := by
            rintro rfl
            rw [Course.get?_closed, if_pos rfl] at opened
            cases opened
          refine awaits.closed sound known different fun twin => unshifted ?_
          rintro ⟨name, elsewhere, ⟨_, _, _, same⟩ | ⟨_, same⟩⟩
          · cases same
          · cases same
            exact elsewhere twin
  | reported live reports =>
      refine awaits.reported sound live reports passes.opened located isModel rfl fun rests => ?_
      exact passes.spared (congrArg Course.Occurrence.reported rests)
  | indexed file content =>
      exact awaits.keep rfl rfl
        (unshifted (Moment.not_cascades (fun _ _ _ => nofun) (fun _ => nofun)))
  | stored files =>
      exact awaits.keep rfl rfl
        (unshifted (Moment.not_cascades (fun _ _ _ => nofun) (fun _ => nofun)))

/-- A document that passes all moments of a stretch goes on waiting, unless what it reaches shifts
silently. -/
theorem Stretch.awaits {start finish : Course} {moments : List Moment}
    (stretch : Stretch start moments finish) (sound : start.Sound) {uri : String}
    {document : Document} (passes : ∀ moment ∈ moments, moment.Passes uri document)
    (opened : finish.documents.get? uri = some document) {path target : Path}
    (located : document.path = some path) (isModel : path.suffix = modelSuffix)
    (awaits : start.Awaits uri path document.text target)
    (loud : ∀ moment ∈ moments, ¬ moment.ShiftsSilently path document.text) :
    finish.Awaits uri path document.text target := by
  induction stretch with
  | nil => exact awaits
  | cons moment stretch ih =>
      obtain ⟨first, passes⟩ := List.forall_mem_cons.mp passes
      obtain ⟨loudFirst, loud⟩ := List.forall_mem_cons.mp loud
      have waiting := Moment.awaits sound first (stretch.opened passes opened) located isModel
        awaits loudFirst
      exact ih (moment.step.sound sound) passes opened waiting loud

/-- A change that passed a waiting importer over came after a change of the importer itself in the
same shared quiet period, unless what the importer reaches shifted silently since. -/
theorem Run.cause_of_passedOver {history : List Moment} {course : Course} (run : Run history course)
    (idle : course.Idle) {importer imported : String} {document : Document}
    (opened : course.documents.get? importer = some document) {path target : Path}
    (located : document.path = some path) (isModel : path.suffix = modelSuffix)
    (named : Uri.path? imported = some target)
    (reaches : target ∈ course.workspace.reachable path document.text)
    {earlier later : List Moment} {change : Moment} (split : history = earlier ++ change :: later)
    (passed : PassedOver importer imported change later) :
    path = target ∨ importer ∈ change.after.changed ∨
      ∃ moment ∈ later, moment.ShiftsSilently path document.text := by
  by_contra neither
  simp only [not_or, not_exists, not_and] at neither
  obtain ⟨elsewhere, unchanged, loud⟩ := neither
  obtain ⟨start, begins, stretch⟩ := run
  obtain ⟨middle, before, after⟩ := (split ▸ stretch).divide
  cases after with
  | cons _ after =>
      have sound := before.sound begins.sound
      have settled : course.pending? importer = none := by
        rw [Course.pending?, idle.pending]
        rfl
      have unstarted := after.not_starts (change.step.sound sound) passed.settled passed.unplanned
        passed.spared
      obtain ⟨_, passes⟩ := after.passes (change.step.sound sound) opened settled unstarted
      have edited : (∀ other, other ∈ change.after.changed ↔
            other = imported ∨ other ∈ change.before.changed) ∧ change.after.timer?.isSome := by
        obtain ⟨isOpen, changes, version, same⟩ := passed.edits
        obtain ⟨first, occurrence, second, step⟩ := change
        cases same
        cases step with
        | edited => exact first.changed_edited isOpen changes version
      have awaits : change.after.Awaits importer path document.text target :=
        ⟨unchanged, fun reaches => ⟨edited.2, imported, (edited.1 imported).mpr (Or.inl rfl),
          target, named, elsewhere, reaches⟩⟩
      have waiting := (after.awaits (change.step.sound sound) passes opened located isModel awaits
        loud).awaited reaches
      rw [idle.timer] at waiting
      cases waiting.1

/-- **An importer is fresh unless a change was overlooked.**  Once nothing is going on, an open
model was validated after the last change of an open document that it reaches unless that change
passed it over.  Then both stand for one path, or the importer itself had changed before in the same
shared quiet period, or what it reaches shifted silently since. -/
theorem Run.fresh_iff_not_overlooked {history : List Moment} {course : Course}
    (run : Run history course) (idle : course.Idle) {importer imported : String}
    {document other : Document} (opened : course.documents.get? importer = some document)
    (opened' : course.documents.get? imported = some other) {path target : Path}
    (located : document.path = some path) (located' : other.path = some target)
    (isModel : path.suffix = modelSuffix)
    (reaches : target ∈ course.workspace.reachable path document.text) :
    (Fresh importer imported history ↔ ¬ Overlooked importer imported history) ∧
      ∀ earlier change later, history = earlier ++ change :: later →
        PassedOver importer imported change later →
          path = target ∨ importer ∈ change.after.changed ∨
            ∃ moment ∈ later, moment.ShiftsSilently path document.text := by
  refine ⟨run.fresh_iff idle (by rw [opened]; rfl), fun earlier change later split passed => ?_⟩
  have named : Uri.path? imported = some target := by
    obtain ⟨start, begins, stretch⟩ := run
    rw [← ((stretch.sound begins.sound).coherent.named imported other opened').2, located']
  exact run.cause_of_passedOver idle opened located isModel named reaches split passed

end

/-- A node with a text. -/
private def nodeOf (kind : String) (field : Option String) (text : String)
    (children : List Tree.Node) : Tree.Node :=
  .node ⟨kind, field, 0, 0, ⟨0, 0⟩, ⟨0, 0⟩, some text.toUTF8.toList, false, false, 0, 0⟩ children

/-- A grammar that knows one `use` statement only. -/
private def oneImport : Grammar where
  parse := fun text =>
    if text = "use b.ump;" then
      nodeOf "source_file" none text
        [nodeOf "use_statement" none text [nodeOf "use_path" (some "path") "b.ump" []]]
    else nodeOf "source_file" none text []
  nextSymbols := fun _ => []
  definitions := []
  references := []
  completions := []

private def importerUri : String := "file:///w/a.ump"

private def importedUri : String := "file:///w/b.ump"

section

open scoped Trial

private def blank : Course :=
  let session := Session.initial (FileStore.initial .allowed) (Surround.initial [] [])
  ⟨session.withWorkspace { session.bench.workspace with grammar := some oneImport }, []⟩

private def importerOpens : Moment := ⟨_, _, _, .opened blank importerUri "use b.ump;" 1⟩

private def importedOpens : Moment := ⟨_, _, _, .opened importerOpens.after importedUri "" 1⟩

private def importerChanges : Moment := ⟨_, _, _, .edited importedOpens.after importerUri [] 2⟩

/-- The quiet period of the importer is over. -/
private def importerRests : Moment :=
  ⟨_, _, _, .reported importerChanges.after (by decide +kernel) (.quiet 2 importerUri)⟩

private def importerEnds : Moment :=
  ⟨_, _, _, .reported importerRests.after (by decide +kernel)
    (.validation 4 importerUri 2 (.diagnostics []))⟩

private def importedChanges : Moment := ⟨_, _, _, .edited importerEnds.after importedUri [] 2⟩

private def importedRests : Moment :=
  ⟨_, _, _, .reported importedChanges.after (by decide +kernel) (.quiet 5 importedUri)⟩

private def importedEnds : Moment :=
  ⟨_, _, _, .reported importedRests.after (by decide +kernel)
    (.validation 7 importedUri 2 (.diagnostics []))⟩

/-- The shared quiet period is over. -/
private def bothRest : Moment :=
  ⟨_, _, _, .reported importedEnds.after (by decide +kernel) (.dependentsQuiet 6)⟩

private theorem affected_bothRest :
    Schedule.affected (host.surroundings bothRest.before.session) bothRest.before.changed = [] := by
  rw [List.eq_nil_iff_forall_not_mem]
  intro uri member
  obtain ⟨⟨other, _, dependent⟩, unchanged⟩ := Schedule.mem_affected.mp member
  have isOpen : uri ∈ bothRest.before.documents.documents.map (·.uri) := by
    change uri ∈ bothRest.before.session.dependents other at dependent
    unfold dependents at dependent
    split at dependent
    · obtain ⟨document, listed, rfl⟩ := List.mem_map.mp dependent
      exact List.mem_map_of_mem (List.mem_filter.mp listed).1
    · cases dependent
  have all : bothRest.before.documents.documents.map (·.uri) = bothRest.before.changed := by
    decide +kernel
  exact unchanged (all ▸ isOpen)

/-- An importer that was changed and validated shortly before its import is changed is not validated
again. -/
theorem outdated_importer : ∃ history course document other path target,
    Run history course ∧ course.Idle ∧
      course.documents.get? importerUri = some document ∧
      course.documents.get? importedUri = some other ∧
      document.path = some path ∧ other.path = some target ∧ path.suffix = modelSuffix ∧
      target ∈ course.workspace.reachable path document.text ∧
      ¬ Fresh importerUri importedUri history := by
  have begins : blank.Begins := ⟨rfl, rfl, ⟨_, _, rfl⟩, rfl⟩
  have later : Stretch importedChanges.after [importedRests, importedEnds, bothRest]
      bothRest.after := .cons importedRests (.cons importedEnds (.cons bothRest (.nil _)))
  have stretch := Stretch.cons importerOpens (.cons importedOpens (.cons importerChanges
    (.cons importerRests (.cons importerEnds (.cons importedChanges later)))))
  have run : Run _ bothRest.after := ⟨blank, begins, stretch⟩
  have swept : bothRest.after.schedule =
      { bothRest.before.schedule with changed := [], dependentsTimer := none } := by
    change (Schedule.startAll (host.surroundings bothRest.before.session) _ (Schedule.affected
      (host.surroundings bothRest.before.session) bothRest.before.changed)).1 = _
    rw [affected_bothRest]
    rfl
  have idle : bothRest.after.Idle := by
    refine ⟨?_, ?_, ?_⟩
    · rw [swept]
      exact congrArg OrderedMap.mk (show bothRest.before.schedule.pending.entries = [] by
        decide +kernel)
    · rw [swept]
      exact congrArg OrderedMap.mk (show bothRest.before.schedule.running.entries = [] by
        decide +kernel)
    · rw [Course.timer?, swept]
  have opened : bothRest.after.documents.get? importerUri =
      some ⟨importerUri, some ⟨.root, ["w", "a.ump"]⟩, "use b.ump;", 2⟩ := by decide +kernel
  have opened' : bothRest.after.documents.get? importedUri =
      some ⟨importedUri, some ⟨.root, ["w", "b.ump"]⟩, "", 2⟩ := by decide +kernel
  have isModel : Path.suffix ⟨.root, ["w", "a.ump"]⟩ = modelSuffix := by decide +kernel
  have reaches : ⟨.root, ["w", "b.ump"]⟩ ∈
      bothRest.after.workspace.reachable ⟨.root, ["w", "a.ump"]⟩ "use b.ump;" := by
    refine Walk.start_subset_reached ?_
    have statements := (stretch.sound begins.sound).reachable.useStatements_eq
      ⟨.root, ["w", "a.ump"]⟩ "use b.ump;"
    change _ ∈ (List.map _ (List.filter _ (bothRest.after.workspace.useStatements _ _))).map _
    rw [statements]
    decide +kernel
  have passed : PassedOver importerUri importedUri importedChanges
      [importedRests, importedEnds, bothRest] := by
    refine ⟨⟨by decide +kernel, [], 2, rfl⟩, by decide +kernel, ?_, ?_⟩
    · simp only [List.forall_mem_cons]
      refine ⟨?_, ?_, ?_, fun _ member => absurd member List.not_mem_nil⟩ <;>
        rintro (⟨_, _, _, same⟩ | ⟨_, _, same⟩) <;> cases same
    · simp only [List.forall_mem_cons]
      refine ⟨nofun, nofun, fun _ => ?_, fun _ member => absurd member List.not_mem_nil⟩
      rw [affected_bothRest]
      exact List.not_mem_nil
  have stale := (Run.fresh_iff_not_overlooked run idle opened opened' rfl rfl isModel reaches).1
  refine ⟨_, _, _, _, _, _, run, idle, opened, opened', rfl, rfl, isModel, reaches, ?_⟩
  exact fun fresh => stale.mp fresh
    ⟨[importerOpens, importedOpens, importerChanges, importerRests, importerEnds], _, _, rfl,
      passed⟩

end

end Session

end ModelAssist
