import ModelAssist.Proofs.Document
import ModelAssist.Proofs.Schedule.Start
import ModelAssist.Proofs.Workspace.Reach
import ModelAssist.Session.Handling

/-!
# Courses of a session

A session together with the jobs that its schedule started and that have still to report back.  The
editor opens, changes and closes documents, the jobs report in any order, and between that files
change on disk and lookups index files.

Every step keeps the schedule and its jobs together, the documents coherent and the index reachable
(`Session.Course.Step.sound`).
-/

namespace ModelAssist

open Schedule (Job)

namespace Session

/-- A session with the jobs that have still to report back. -/
structure Course where
  session : Session
  jobs : List Job

namespace Course

def documents (course : Course) : DocumentStore := course.session.documents

def workspace (course : Course) : Workspace := course.session.bench.workspace

def schedule (course : Course) : Schedule := course.session.dispatch.schedule

def withWorkspace (course : Course) (workspace : Workspace) : Course :=
  { course with session := course.session.withWorkspace workspace }

def drop (course : Course) (job : Job) : Course :=
  { course with jobs := course.jobs.erase job }

section

variable [Host]

def react (course : Course) (event : ScheduleEvent) : Course :=
  let change := course.schedule.handle (host.surroundings course.session) event
  ⟨{ course.session with dispatch := { course.session.dispatch with schedule := change.1 } },
    Job.obeyAll course.jobs change.2⟩

def opened (course : Course) (uri text : String) (version : Int) : Course :=
  { course with session := afterOpening uri text version course.session }.react (.schedule uri none)

/-- The course after a document was changed; one that is not open is ignored. -/
def edited (course : Course) (uri : String) (changes : List TextChange) (version : Int) : Course :=
  match course.documents.get? uri with
  | none => course
  | some document =>
    let text := changes.foldl (fun text change => change.apply text) document.text
    ({ course with session := afterEditing uri text version course.session }.react
      (.schedule uri none)).react (.scheduleDependents uri)

def closed (course : Course) (uri : String) : Course :=
  let after := { course with
    session := course.session.withDocuments (course.documents.close uri) }.react (.close uri)
  match (course.documents.get? uri).bind (·.path) with
  | none => after
  | some path => (after.withWorkspace (after.workspace.documentClosed path)).react
      (.scheduleDependents uri)

/-- The course after items were asked for. -/
def completed (course : Course) (uri : String) (position : Position) : Course :=
  { course with session := (items uri position course.session).1 }

/-- The course after definitions were asked for. -/
def defined (course : Course) (uri : String) (position : Position) : Course :=
  { course with session := (locations uri position course.session).1 }

end

/-- What happens in a course. -/
inductive Occurrence where
  | opened (uri text : String) (version : Int)
  | edited (uri : String) (changes : List TextChange) (version : Int)
  | closed (uri : String)
  | reported (event : ScheduleEvent)
  /-- A lookup indexes a file. -/
  | indexed (file : String) (content : Option String)
  /-- The files on disk change. -/
  | stored (files : FileStore)

/-- One step of a course. -/
inductive Step [Host] : Course → Occurrence → Course → Prop
  | opened (course : Course) (uri text : String) (version : Int) :
      Step course (.opened uri text version) (course.opened uri text version)
  | edited (course : Course) (uri : String) (changes : List TextChange) (version : Int) :
      Step course (.edited uri changes version) (course.edited uri changes version)
  | closed (course : Course) (uri : String) : Step course (.closed uri) (course.closed uri)
  | reported (course : Course) {job : Job} (live : job ∈ course.jobs) {event : ScheduleEvent}
      (reports : job.Reports event) :
      Step course (.reported event) ((course.drop job).react event)
  | indexed (course : Course) (file : String) (content : Option String) :
      Step course (.indexed file content)
        (course.withWorkspace (course.workspace.indexFile file content).1)
  | stored (course : Course) (files : FileStore) :
      Step course (.stored files) (course.withWorkspace { course.workspace with files })

/-- What holds in every course between the schedule and its jobs, between documents and paths, and
between the index and what was indexed. -/
structure Sound [Host] (course : Course) : Prop where
  core : Schedule.Course.Sound ⟨course.schedule, course.jobs⟩
  coherent : course.documents.Coherent
  reachable : course.workspace.Reachable

/-- A workspace that differs from another one at most in its documents and in its index. -/
def Amends (before after : Workspace) (documents : DocumentStore) : Prop :=
  ∃ index, after = { before with documents, index } ∧ (before.Reachable → after.Reachable)

/-- Changes of the workspace that follow each other are one change to the last documents. -/
theorem Amends.trans {first second third : Workspace} {documents documents' : DocumentStore}
    (amends : Amends first second documents) (amends' : Amends second third documents') :
    Amends first third documents' := by
  obtain ⟨index, rfl, kept⟩ := amends
  obtain ⟨index', rfl, kept'⟩ := amends'
  exact ⟨index', rfl, fun reachable => kept' (kept reachable)⟩

/-- Replacing the documents alone changes nothing else of the workspace. -/
theorem amends_documents (workspace : Workspace) (documents : DocumentStore) :
    Amends workspace { workspace with documents } documents :=
  ⟨workspace.index, rfl, fun reachable => reachable⟩

/-- Indexing a file leaves the documents alone. -/
theorem amends_indexFile (workspace : Workspace) (file : String) (content : Option String) :
    Amends workspace (workspace.indexFile file content).1 workspace.documents := by
  obtain ⟨index, indexed⟩ := workspace.indexFile_eq file content
  exact ⟨index, indexed, fun reachable => reachable.indexFile file content⟩

variable [Host]

/-- Indexing a closed file again leaves the documents alone. -/
theorem amends_documentClosed (workspace : Workspace) (path : Path) :
    Amends workspace (workspace.documentClosed path) workspace.documents := by
  obtain ⟨index, closed⟩ := workspace.documentClosed_eq path
  exact ⟨index, closed, fun reachable => reachable.documentClosed path⟩

/-- Opening a document changes the documents and the index. -/
theorem afterOpening_eq (uri text : String) (version : Int) (session : Session) :
    ∃ workspace, afterOpening uri text version session = session.withWorkspace workspace ∧
      Amends session.bench.workspace workspace
        (session.documents.openDocument uri text version) := by
  have documents := amends_documents session.bench.workspace
    (session.documents.openDocument uri text version)
  simp only [afterOpening]
  split
  · next document path found =>
      split
      · exact ⟨_, rfl, documents.trans (amends_indexFile _ path.text (some text))⟩
      · exact ⟨_, rfl, documents⟩
  · exact ⟨_, rfl, documents⟩

/-- Changing a document changes the documents and the index. -/
theorem afterEditing_eq (uri text : String) (version : Int) (session : Session) :
    ∃ workspace, afterEditing uri text version session = session.withWorkspace workspace ∧
      Amends session.bench.workspace workspace (session.documents.update uri text version) := by
  have documents := amends_documents session.bench.workspace
    (session.documents.update uri text version)
  simp only [afterEditing]
  split
  · next document path found =>
      exact ⟨_, rfl, documents.trans (amends_indexFile _ path.text (some text))⟩
  · exact ⟨_, rfl, documents⟩

namespace Sound

variable {course : Course} (sound : course.Sound)
include sound

/-- The course is sound with an amended workspace, if its documents are coherent. -/
theorem amend {workspace : Workspace} {documents : DocumentStore}
    (amends : Amends course.workspace workspace documents) (coherent : documents.Coherent) :
    (course.withWorkspace workspace).Sound := by
  obtain ⟨index, rfl, kept⟩ := amends
  exact ⟨sound.core, coherent, kept sound.reachable⟩

/-- A request keeps a course sound. -/
theorem request (event : ScheduleEvent) (asked : event.IsRequest) : (course.react event).Sound := by
  have step : Schedule.Course.Step (host.surroundings course.session)
      ⟨course.schedule, course.jobs⟩ event _ := .request _ asked
  exact ⟨step.sound sound.core, sound.coherent, sound.reachable⟩

/-- The report of a live job keeps a course sound. -/
theorem report {job : Job} (live : job ∈ course.jobs) {event : ScheduleEvent}
    (reports : job.Reports event) : ((course.drop job).react event).Sound := by
  have step : Schedule.Course.Step (host.surroundings course.session)
      ⟨course.schedule, course.jobs⟩ event _ := .report _ live reports
  exact ⟨step.sound sound.core, sound.coherent, sound.reachable⟩

end Sound

/-- **Every step keeps a course sound.** -/
theorem Step.sound {before after : Course} {occurrence : Occurrence}
    (step : Step before occurrence after) (sound : before.Sound) : after.Sound := by
  cases step with
  | opened uri text version =>
      obtain ⟨workspace, sessionEq, amends⟩ := afterOpening_eq uri text version before.session
      have amended := sound.amend amends (sound.coherent.openDocument uri text version)
      rw [Course.opened, sessionEq]
      exact amended.request (.schedule uri none) trivial
  | edited uri changes version =>
      unfold Course.edited
      split
      · exact sound
      · next document found =>
          obtain ⟨workspace, sessionEq, amends⟩ := afterEditing_eq uri
            (changes.foldl (fun text change => change.apply text) document.text) version
            before.session
          have amended := sound.amend amends (sound.coherent.update uri _ version)
          simp only [sessionEq]
          exact (amended.request (.schedule uri none) trivial).request (.scheduleDependents uri)
            trivial
  | closed uri =>
      have amended := sound.amend (amends_documents before.workspace (before.documents.close uri))
        (sound.coherent.close uri)
      have closed := amended.request (.close uri) trivial
      simp only [Course.closed]
      split
      · exact closed
      · next path _ =>
          exact (closed.amend (amends_documentClosed _ path) closed.coherent).request
            (.scheduleDependents uri) trivial
  | reported live reports => exact sound.report live reports
  | indexed file content =>
      exact sound.amend (amends_indexFile before.workspace file content) sound.coherent
  | stored files => exact ⟨sound.core, sound.coherent, sound.reachable⟩

end Course

end Session

end ModelAssist
