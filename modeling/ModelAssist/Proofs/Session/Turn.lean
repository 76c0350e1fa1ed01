import ModelAssist.Proofs.Concurrency
import ModelAssist.Proofs.Session.Course

/-!
# Turns of a session

What the messages about documents, and the reports of jobs, lead a session to.  They end in the turn
in which they begin, and the session is then the one of the course, but for the tasks that work for
it and for what the editor was told (`Session.leads_opened`, `Session.leads_edited`,
`Session.leads_closed`, `Session.leads_completion`, `Session.leads_definition`,
`Session.leads_react`).
-/

namespace ModelAssist

namespace Session

/-- Sessions that differ at most in who works for them and in what the editor was told. -/
structure Alike (first second : Session) : Prop where
  bench : first.bench = second.bench
  schedule : first.dispatch.schedule = second.dispatch.schedule

namespace Alike

/-- A session is alike to itself. -/
theorem refl (session : Session) : session.Alike session := ⟨rfl, rfl⟩

/-- Alikeness is passed on along three sessions. -/
theorem trans {first second third : Session} (alike : first.Alike second)
    (alike' : second.Alike third) : first.Alike third :=
  ⟨alike.bench.trans alike'.bench, alike.schedule.trans alike'.schedule⟩

/-- Alike sessions have the same documents. -/
theorem documents {first second : Session} (alike : first.Alike second) :
    first.documents = second.documents :=
  congrArg (fun bench : Workbench => bench.workspace.documents) alike.bench

/-- Alike sessions give the validations the same surroundings. -/
theorem surroundings [Host] {first second : Session} (alike : first.Alike second) :
    host.surroundings first = host.surroundings second := by
  have answers : first.dependents = second.dependents := by
    funext uri
    unfold dependents
    rw [alike.bench]
  change (⟨first.documents.version?, first.dependents⟩ : Surroundings) = _
  rw [alike.documents, answers]
  rfl

/-- Giving both the same workspace keeps two sessions alike. -/
theorem withWorkspace {first second : Session} (alike : first.Alike second)
    (workspace : Workspace) :
    (first.withWorkspace workspace).Alike (second.withWorkspace workspace) :=
  ⟨congrArg (fun bench : Workbench => { bench with workspace }) alike.bench, alike.schedule⟩

/-- Giving both the same documents keeps two sessions alike. -/
theorem withDocuments {first second : Session} (alike : first.Alike second)
    (documents : DocumentStore) :
    (first.withDocuments documents).Alike (second.withDocuments documents) := by
  unfold Session.withDocuments
  rw [alike.bench]
  exact alike.withWorkspace _

/-- Indexing the same text keeps two sessions alike. -/
theorem index {first second : Session} (alike : first.Alike second) (path : Path) (text : String) :
    (first.index path text).Alike (second.index path text) := by
  unfold Session.index
  rw [alike.bench]
  exact alike.withWorkspace _

/-- Alike sessions know the same file behind a document. -/
theorem file? {first second : Session} (alike : first.Alike second) (uri : String) :
    first.file? uri = second.file? uri := by
  unfold Session.file?
  rw [alike.documents]

/-- Opening the same document keeps two sessions alike. -/
theorem afterOpening [Host] {first second : Session} (alike : first.Alike second)
    (uri text : String) (version : Int) :
    (afterOpening uri text version first).Alike (afterOpening uri text version second) := by
  have opened := alike.withDocuments (second.documents.openDocument uri text version)
  simp only [Session.afterOpening]
  rw [alike.documents, opened.file? uri]
  split
  · split
    · exact opened.index _ _
    · exact opened
  · exact opened

/-- The same edit keeps two sessions alike. -/
theorem afterEditing [Host] {first second : Session} (alike : first.Alike second)
    (uri text : String) (version : Int) :
    (afterEditing uri text version first).Alike (afterEditing uri text version second) := by
  have edited := alike.withDocuments (second.documents.update uri text version)
  simp only [Session.afterEditing]
  rw [alike.documents, edited.file? uri]
  split
  · exact edited.index _ _
  · exact edited

/-- The same completion keeps two sessions alike. -/
theorem items [Host] {first second : Session} (alike : first.Alike second) (uri : String)
    (position : Position) :
    (items uri position first).1.Alike (items uri position second).1 := by
  simp only [Session.items]
  rw [alike.file? uri, alike.bench]
  split
  · exact alike
  · exact alike.withWorkspace _

/-- The same jump to a definition keeps two sessions alike. -/
theorem locations [Host] {first second : Session} (alike : first.Alike second) (uri : String)
    (position : Position) :
    (locations uri position first).1.Alike (locations uri position second).1 := by
  simp only [Session.locations]
  rw [alike.file? uri, alike.bench]
  split
  · exact alike
  · split
    · exact alike
    · exact alike.withWorkspace _

end Alike

/-- Holds if an act leaves a session as it is, but for who works for it and what the editor was
told. -/
def Keeps {Output : Type} (act : SessionAct Output) : Prop :=
  ∀ session : Session, act.Leads session fun _ after => after.Alike session

namespace Keeps

variable {Output Other : Type}

theorem pure (value : Output) : Keeps (Pure.pure value) :=
  fun session => .pure (.refl session)

theorem bind {act : SessionAct Output} {rest : Output → SessionAct Other} (first : Keeps act)
    (second : ∀ output, Keeps (rest output)) : Keeps (act >>= rest) :=
  fun session => .bind (first session) fun output _ alike =>
    (second output _).weaken fun _ _ alike' => alike'.trans alike

/-- A change that leaves a session alike keeps what is compared. -/
theorem change {update : Session → Session} (alike : ∀ session, (update session).Alike session) :
    Keeps (Act.change update) :=
  fun session => .change (alike session)

/-- Looking a ticket up keeps the session alike. -/
theorem lookUp [Host] (ticket : Ticket) : Keeps (Dispatch.lookUp host ticket) :=
  bind (fun session => .look (.refl session)) fun _ => pure _

/-- Employing a worker keeps the session alike. -/
theorem employ [Host] (worker : Worker) : Keeps (Dispatch.employ host worker) :=
  change fun _ => ⟨rfl, rfl⟩

/-- Starting a task keeps the session alike. -/
theorem start (child : Process Session (Except ValidationFault ValidatorOutput)) :
    Keeps (Act.start child) :=
  fun session => .start fun _ => .refl session

/-- Spawning a validation keeps the session alike. -/
theorem spawnValidation [Host] (command : ScheduleCommand) :
    Keeps (Dispatch.spawnValidation host command) := by
  unfold Dispatch.spawnValidation
  split
  · refine bind (fun session => .makeToken fun _ => .refl session) fun token => ?_
    exact bind (start _) fun task => employ _
  · exact pure ()

/-- Spawning the task of a command keeps the session alike. -/
theorem spawn [Host] (command : ScheduleCommand) : Keeps (Dispatch.spawn host command) := by
  unfold Dispatch.spawn
  split
  · exact bind (start _) fun task => employ _
  · exact bind (start _) fun task => employ _
  · exact spawnValidation command

/-- Performing a command keeps the session alike if spawning its task does. -/
theorem perform [Host] {spawn : ScheduleCommand → SessionAct Unit}
    (spawned : ∀ command, Keeps (spawn command)) (command : ScheduleCommand) :
    Keeps (Dispatch.perform host spawn command) := by
  unfold Dispatch.perform
  split
  · next uri found version =>
      change Keeps (publish uri found version)
      unfold publish
      split
      · exact change fun _ => ⟨rfl, rfl⟩
      · exact pure ()
  · exact change fun _ => ⟨rfl, rfl⟩
  · refine bind (lookUp _) fun worker => ?_
    split
    · exact fun session => .cancel _ _ (.refl session)
    · exact pure _
  · refine bind (lookUp _) fun worker => ?_
    split
    · exact fun session => .interrupt _ (.refl session)
    · exact pure _
  · exact spawned command

/-- Carrying out some commands keeps a session if what they start does. -/
theorem performAll [Host] {spawn : ScheduleCommand → SessionAct Unit}
    (spawned : ∀ command, Keeps (spawn command)) (commands : List ScheduleCommand) :
    Keeps (Dispatch.performAll host spawn commands) := by
  induction commands with
  | nil => exact pure ()
  | cons command rest ih => exact bind (perform spawned command) fun _ => ih

end Keeps

private theorem leads_change {update : Session → Session} {session other : Session}
    (alike : (update session).Alike other) :
    (Act.change update : SessionAct Unit).Leads session fun _ after => after.Alike other :=
  .change alike

private theorem leads_look {session other : Session} (alike : session.Alike other) :
    (Act.look : SessionAct Session).Leads session
      fun seen after => seen.documents = other.documents ∧ after.Alike other :=
  .look ⟨alike.documents, alike⟩

section

variable [Host]

/-- Letting the schedule handle an event leads to the schedule of the course. -/
private theorem leads_decide (course : Course) (event : ScheduleEvent) {session : Session}
    (alike : session.Alike course.session) :
    (Dispatch.decide host event : SessionAct (List ScheduleCommand)).Leads session
      fun _ after => after.Alike (course.react event).session := by
  refine .step ⟨alike.bench, ?_⟩
  change (session.dispatch.schedule.handle (host.surroundings session) event).1 = _
  rw [alike.schedule, alike.surroundings]
  rfl

/-- **An event leads a session to where it leads a course.** -/
theorem leads_react {spawn : ScheduleCommand → SessionAct Unit}
    (spawned : ∀ command, Keeps (spawn command)) (course : Course) (event : ScheduleEvent)
    {session : Session} (alike : session.Alike course.session) :
    (Dispatch.handleWith host spawn event).Leads session
      fun _ after => after.Alike (course.react event).session :=
  .bind (leads_decide course event alike) fun commands middle alike =>
    (Keeps.performAll spawned commands middle).weaken fun _ _ alike' => alike'.trans alike

/-- **Opening a document leads a session to where it leads a course.** -/
theorem leads_opened (course : Course) (uri text : String) (version : Int) {session : Session}
    (alike : session.Alike course.session) :
    (handleDocument (.opened uri text version)).Leads session
      fun _ after => after.Alike (course.opened uri text version).session := by
  let opened : Course := { course with session := afterOpening uri text version course.session }
  refine .bind (leads_change (alike.afterOpening uri text version)) fun _ _ alike => ?_
  exact leads_react Keeps.spawn opened (.schedule uri none) alike

/-- **Changing a document leads a session to where it leads a course.** -/
theorem leads_edited (course : Course) (uri : String) (changes : List TextChange) (version : Int)
    {session : Session} (alike : session.Alike course.session) :
    (handleDocument (.changed uri changes version)).Leads session
      fun _ after => after.Alike (course.edited uri changes version).session := by
  refine .bind (leads_look alike) ?_
  rintro seen session ⟨documents, alike⟩
  rw [documents]
  unfold Course.edited Course.documents
  cases course.session.documents.get? uri with
  | none => exact .pure alike
  | some document =>
      let text := changes.foldl (fun text change => change.apply text) document.text
      let edited : Course := { course with
        session := afterEditing uri text version course.session }
      refine .bind (leads_change (alike.afterEditing uri text version)) fun _ _ alike => ?_
      refine .bind (leads_react Keeps.spawn edited (.schedule uri none) alike) fun _ _ alike => ?_
      exact leads_react Keeps.spawn _ (.scheduleDependents uri) alike

/-- **Closing a document leads a session to where it leads a course.** -/
theorem leads_closed (course : Course) (uri : String) {session : Session}
    (alike : session.Alike course.session) :
    (handleDocument (.closed uri)).Leads session
      fun _ after => after.Alike (course.closed uri).session := by
  refine .bind (leads_look alike) ?_
  rintro seen session ⟨documents, alike⟩
  rw [documents]
  let dropped : Course := { course with
    session := course.session.withDocuments (course.documents.close uri) }
  have closed : (session.withDocuments (session.documents.close uri)).Alike dropped.session := by
    rw [alike.documents]
    exact alike.withDocuments _
  refine .bind (leads_change closed) fun _ _ alike => ?_
  refine .bind (leads_react Keeps.spawn dropped (.close uri) alike) fun _ session alike => ?_
  unfold Course.closed Course.documents
  cases (course.session.documents.get? uri).bind (·.path) with
  | none => exact .pure alike
  | some path =>
      let amended := (dropped.react (.close uri)).withWorkspace
        ((dropped.react (.close uri)).workspace.documentClosed path)
      have amends : (session.withWorkspace (session.bench.workspace.documentClosed path)).Alike
          amended.session := by
        rw [alike.bench]
        exact alike.withWorkspace _
      refine .bind (leads_change amends) fun _ _ alike => ?_
      exact leads_react Keeps.spawn amended (.scheduleDependents uri) alike

end

private theorem leads_step {Output : Type} {update : Session → Session × Output}
    {session other : Session} (alike : (update session).1.Alike other) :
    (Act.step update : SessionAct Output).Leads session fun _ after => after.Alike other :=
  .step alike

private theorem keeps_say (message : Protocol.Outgoing) : Keeps (say message) :=
  Keeps.change fun _ => ⟨rfl, rfl⟩

/-- **A question for items leads a session to where it leads a course.** -/
theorem leads_completion [Host] (source : SessionSource) (course : Course) (request : Value)
    (uri : String) (position : Position) {session : Session}
    (alike : session.Alike course.session) :
    (handleLive source (.completion request uri position)).Leads session
      fun _ after => after.Alike (course.completed uri position).session := by
  refine .bind (leads_step (alike.items uri position)) fun offered middle alike => ?_
  exact (keeps_say _ middle).weaken fun _ _ alike' => alike'.trans alike

/-- **A question for definitions leads a session to where it leads a course.** -/
theorem leads_definition [Host] (source : SessionSource) (course : Course) (request : Value)
    (uri : String) (position : Position) {session : Session}
    (alike : session.Alike course.session) :
    (handleLive source (.definition request uri position)).Leads session
      fun _ after => after.Alike (course.defined uri position).session := by
  refine .bind (leads_step (alike.locations uri position)) fun found middle alike => ?_
  cases found
  · exact (keeps_say _ middle).weaken fun _ _ alike' => alike'.trans alike
  · exact (keeps_say _ middle).weaken fun _ _ alike' => alike'.trans alike

end Session

end ModelAssist
