import ModelAssist.Proofs.Session.Freshness
import ModelAssist.Proofs.Workspace.Mirror

/-!
# The index follows the editor

While no two open documents have one path, the index has the symbols that the live text of every
open model declares, whatever the editor asks for: opening and changing a document index its text,
lookups index what they reach from the live texts, and none of this touches the symbols of another
open document.  A document that is closed leaves the symbols of its saved text behind, or none
(`Session.Course.Served.index_follows`).
-/

namespace ModelAssist

open Schedule (Job)

namespace Session

/-- A file is known to a session through an open document that has a path. -/
theorem file?_eq_some {session : Session} {uri : String} {document : Document} {path : Path} :
    session.file? uri = some (document, path) ↔
      session.documents.get? uri = some document ∧ document.path = some path := by
  simp [file?, Option.bind_eq_some_iff]

/-- A document that is no file asks nothing of the index. -/
theorem follows_of_file?_eq_none {session : Session} {uri : String}
    (noFile : session.file? uri = none) : session.bench.workspace.Follows uri := by
  intro document path found located
  have isFile := file?_eq_some.mpr ⟨found, located⟩
  exact absurd (noFile.symm.trans isFile) nofun

/-- What the editor asks of a session about a document. -/
inductive Request where
  | opened (uri text : String) (version : Int)
  | edited (uri : String) (changes : List TextChange) (version : Int)
  | closed (uri : String)
  | completed (uri : String) (position : Position)
  | defined (uri : String) (position : Position)

section

variable [Host]

namespace Course

/-- The course after a request was handled. -/
def serve (course : Course) : Request → Course
  | .opened uri text version => course.opened uri text version
  | .edited uri changes version => course.edited uri changes version
  | .closed uri => course.closed uri
  | .completed uri position => course.completed uri position
  | .defined uri position => course.defined uri position

/-- Holds of the courses with a grammar in which requests were handled and no two open documents
ever had one path.  Jobs report and files change on disk between the requests. -/
inductive Served (grammar : Grammar) : Course → Prop where
  | begin {course : Course} (begins : course.Begins)
      (loaded : course.workspace.grammar = some grammar) : Served grammar course
  | request {course : Course} (served : Served grammar course) (request : Request)
      (distinct : (course.serve request).documents.Distinct) :
      Served grammar (course.serve request)
  | report {course : Course} (served : Served grammar course) {job : Job}
      (live : job ∈ course.jobs) {event : ScheduleEvent} (reports : job.Reports event) :
      Served grammar ((course.drop job).react event)
  | store {course : Course} (served : Served grammar course) (files : FileStore) :
      Served grammar (course.withWorkspace { course.workspace with files })

/-- The index of a course mirrors the workspace from the beginning, once the grammar is loaded. -/
theorem Begins.mirrors {course : Course} (begins : course.Begins) {grammar : Grammar}
    (loaded : course.workspace.grammar = some grammar) : course.workspace.Mirrors grammar := by
  have empty : course.workspace.documents = ∅ := begins.documents
  refine ⟨⟨loaded, begins.sound.reachable, begins.sound.coherent, ?_⟩, ?_⟩
  · rw [empty]
    exact DocumentStore.owns_empty
  · intro uri document path found
    rw [empty] at found
    cases found

end Course

variable {grammar : Grammar}

/-- An opened document is indexed if it is a model. -/
theorem mirrors_afterOpening {session : Session} {uri text : String} {version : Int}
    (mirrors : session.bench.workspace.Mirrors grammar)
    (distinct : (session.documents.openDocument uri text version).Distinct) :
    (afterOpening uri text version session).bench.workspace.Mirrors grammar := by
  have lags := mirrors.openDocument distinct
  have own := session.documents.get?_openDocument_self uri text version
  simp only [afterOpening]
  split
  · next document path isFile =>
      obtain ⟨found, located⟩ := file?_eq_some.mp isFile
      obtain rfl := Option.some.inj (own.symm.trans found)
      split
      · exact lags.indexFile found located
      · next other =>
          apply lags.mirrors
          intro document path' found' located' isModel
          obtain rfl := Option.some.inj (own.symm.trans found')
          obtain rfl := Option.some.inj (located.symm.trans located')
          exact absurd isModel other
  · next noFile => exact lags.mirrors (follows_of_file?_eq_none noFile)

/-- A changed document is indexed. -/
theorem mirrors_afterEditing {session : Session} {uri : String}
    (mirrors : session.bench.workspace.Mirrors grammar)
    (opened : (session.documents.get? uri).isSome) (text : String) (version : Int) :
    (afterEditing uri text version session).bench.workspace.Mirrors grammar := by
  have lags := mirrors.update opened text version
  obtain ⟨earlier, known⟩ := Option.isSome_iff_exists.mp opened
  have own := DocumentStore.get?_update_self known text version
  simp only [afterEditing]
  split
  · next document path isFile =>
      obtain ⟨found, located⟩ := file?_eq_some.mp isFile
      obtain rfl := Option.some.inj (own.symm.trans found)
      exact lags.indexFile found located
  · next noFile => exact lags.mirrors (follows_of_file?_eq_none noFile)

end

namespace Course

section

variable [Host]

/-- Closing a document with a path falls back to what is saved there. -/
theorem workspace_closed_of_path {course : Course} {uri : String} {document : Document}
    {path : Path} (found : course.documents.get? uri = some document)
    (located : document.path = some path) :
    (course.closed uri).workspace =
      { course.workspace with documents := course.documents.close uri }.documentClosed path := by
  simp only [closed, found, Option.bind_some, located]
  rfl

section Steps

variable {course : Course} (mirrors : course.workspace.Mirrors grammar)
include mirrors

/-- An edit leaves the index a mirror of the workspace. -/
theorem mirrors_edited (uri : String) (changes : List TextChange) (version : Int) :
    (course.edited uri changes version).workspace.Mirrors grammar := by
  simp only [edited]
  split
  · exact mirrors
  · next document found =>
      have opened : (course.session.documents.get? uri).isSome :=
        Option.isSome_iff_exists.mpr ⟨document, found⟩
      exact mirrors_afterEditing mirrors opened _ version

/-- A closed document leaves the index a mirror of the workspace. -/
theorem mirrors_closed (uri : String) : (course.closed uri).workspace.Mirrors grammar := by
  have closed := mirrors.close uri
  cases located : (course.documents.get? uri).bind (·.path) with
  | none =>
      simp only [Course.closed, located]
      exact closed
  | some path =>
      obtain ⟨document, found, located⟩ := Option.bind_eq_some_iff.mp located
      obtain ⟨normal, plain⟩ := mirrors.isNormal_isPlain found located
      rw [workspace_closed_of_path found located]
      apply closed.documentClosed normal plain
      intro other document' found' located'
      change (course.documents.close uri).get? other = some document' at found'
      rw [course.documents.get?_close] at found'
      split at found'
      · cases found'
      · next different =>
          exact different (mirrors.owns.distinct _ _ _ _ _ found' found located' located)

/-- A completion leaves the index a mirror of the workspace. -/
theorem mirrors_completed (uri : String) (position : Position) :
    (course.completed uri position).workspace.Mirrors grammar := by
  unfold completed items
  split
  · exact mirrors
  · next document path isFile =>
      obtain ⟨found, located⟩ := file?_eq_some.mp isFile
      exact mirrors.completions found located position.line position.column

/-- A jump to a definition leaves the index a mirror of the workspace. -/
theorem mirrors_defined (uri : String) (position : Position) :
    (course.defined uri position).workspace.Mirrors grammar := by
  unfold defined locations
  split
  · exact mirrors
  · next document path isFile =>
      obtain ⟨found, located⟩ := file?_eq_some.mp isFile
      simp only
      split
      · exact mirrors
      · exact mirrors.definitions found located position.line position.column

/-- **Every request leaves the index with the live texts** if different open documents then have
different paths. -/
theorem mirrors_serve {request : Request}
    (distinct : (course.serve request).documents.Distinct) :
    (course.serve request).workspace.Mirrors grammar := by
  cases request with
  | opened uri text version =>
      obtain ⟨workspace, sessionEq, index, rfl, -⟩ :=
        afterOpening_eq uri text version course.session
      have documents : (course.opened uri text version).documents =
          course.documents.openDocument uri text version := by
        rw [Course.opened, sessionEq]
        rfl
      change (course.opened uri text version).documents.Distinct at distinct
      rw [documents] at distinct
      exact mirrors_afterOpening mirrors distinct
  | edited uri changes version => exact mirrors_edited mirrors uri changes version
  | closed uri => exact mirrors_closed mirrors uri
  | completed uri position => exact mirrors_completed mirrors uri position
  | defined uri position => exact mirrors_defined mirrors uri position

end Steps

namespace Served

variable {course : Course} (served : course.Served grammar)
include served

/-- Along every course the index mirrors the workspace. -/
theorem mirrors : course.workspace.Mirrors grammar := by
  induction served with
  | begin begins loaded => exact begins.mirrors loaded
  | request _ request distinct mirrors => exact mirrors_serve mirrors distinct
  | report _ live reports mirrors => exact mirrors
  | store _ files mirrors =>
      exact ⟨⟨mirrors.loaded, mirrors.reachable, mirrors.coherent, mirrors.owns⟩, mirrors.follows⟩

/-- **The index follows the editor.**  It has the symbols of the live text of every open model, and
a document that is closed leaves the symbols of its saved text behind, or is forgotten if that
cannot be read. -/
theorem index_follows :
    (∀ uri document path, course.documents.get? uri = some document →
      document.path = some path → path.suffix = modelSuffix →
        course.workspace.index.fileSymbols path.text =
          SymbolIndex.symbolsOf grammar path.text document.text (grammar.parse document.text)) ∧
      ∀ uri document path, course.documents.get? uri = some document →
        document.path = some path →
          match course.workspace.files.readText? path with
          | some saved =>
            (course.closed uri).workspace.index.fileSymbols path.text =
              SymbolIndex.symbolsOf grammar path.text saved (grammar.parse saved)
          | none =>
            path.text ∉ (course.closed uri).workspace.index.indexedFiles ∧
              (course.closed uri).workspace.index.fileSymbols path.text = [] := by
  have mirrors := served.mirrors
  constructor
  · intro uri document path found located isModel
    exact mirrors.fileSymbols_eq found located isModel
  · intro uri document path found located
    obtain ⟨normal, plain⟩ := mirrors.isNormal_isPlain found located
    have left : (course.closed uri).workspace.index.text? path.text =
        course.workspace.files.readText? path := by
      have fallen := (mirrors.close uri).text?_documentClosed normal plain path.text
      rw [if_pos rfl] at fallen
      rw [workspace_closed_of_path found located]
      exact fallen
    have symbols := (mirrors_closed mirrors uri).toTended.fileSymbols_eq path.text
    rw [Indexing.symbolsIn, left] at symbols
    split
    · next saved read =>
        rw [read] at symbols
        exact symbols
    · next unread =>
        rw [unread] at symbols left
        refine ⟨?_, symbols⟩
        rw [SymbolIndex.mem_indexedFiles, left]
        exact Bool.false_ne_true

end Served

end

section Renamed

/-- A node of a text that names a class. -/
private def nodeIn (text kind : String) (field : Option String) (children : List Tree.Node) :
    Tree.Node :=
  .node ⟨kind, field, 0, 1, ⟨0, 0⟩, ⟨0, 1⟩, some text.toUTF8.toList, false, false, 0, 0⟩ children

/-- A grammar whose texts are the names of classes. -/
private def classNames : Grammar where
  parse := fun text => nodeIn text "source_file" none
    [nodeIn text "class_definition" none [nodeIn text "identifier" (some "name") []]]
  nextSymbols := fun _ => []
  definitions := [.withChild "class_definition" (some "name")
    (.leaf "identifier" ["definition.class"]) []]
  references := []
  completions := []

private def aFile : Path := ⟨.root, ["w", "a.ump"]⟩

section

open scoped Trial

private def savedClass : FileStore :=
  (FileStore.initial .allowed).put aFile (.file "B".toUTF8.toList)

private def quiet : Course :=
  ⟨{ Session.initial savedClass (Surround.initial [] []) with
    bench := .initial ⟨some classNames, ∅, savedClass, ∅⟩ (Surround.initial [] []) }, []⟩

private def openedClass : Course := quiet.serve (.opened "file:///w/a.ump" "A" 1)

private def renamedClass : Course :=
  openedClass.serve (.edited "file:///w/a.ump" [⟨none, "C"⟩] 2)

private def askedClass : Course := renamedClass.serve (.completed "file:///w/a.ump" ⟨0, 1⟩)

private theorem askedClass_eq :
    ∃ index, askedClass.workspace = { renamedClass.workspace with index } := by
  change ∃ index, (renamedClass.completed _ _).workspace = _
  unfold Course.completed items
  split
  · exact ⟨renamedClass.workspace.index, rfl⟩
  · exact renamedClass.workspace.completions_fst _ _ _ _

end

private theorem distinct_of_keys {store : DocumentStore} (uri : String)
    (keys : store.byUri.keys = [uri]) : store.Distinct := by
  have only : ∀ {name : String} {document : Document}, store.get? name = some document →
      name = uri := by
    intro name document found
    have known : name ∈ store.byUri.keys :=
      (store.byUri.mem_keys_iff name).mpr (Option.isSome_iff_exists.mpr ⟨document, found⟩)
    rw [keys] at known
    exact List.mem_singleton.mp known
  intro first second document other path found found' _ _
  exact (only found).trans (only found').symm

private theorem symbolsOf_classNames {name : String} (named : name ∈ ["B", "C"]) :
    SymbolIndex.symbolsOf classNames "/w/a.ump" name (classNames.parse name) =
      [⟨name, .class, "/w/a.ump", ⟨0, 0⟩, ⟨0, 1⟩, some name⟩] := by
  simp only [List.mem_cons, List.not_mem_nil, or_false] at named
  rcases named with rfl | rfl <;> decide +kernel

section

open scoped Trial

/-- A class that was renamed in an open document is indexed under its new name, and under its saved
name when the document is closed. -/
theorem index_follows_renamed :
    askedClass.Served classNames ∧
      askedClass.workspace.index.fileSymbols "/w/a.ump" =
        [⟨"C", .class, "/w/a.ump", ⟨0, 0⟩, ⟨0, 1⟩, some "C"⟩] ∧
      (askedClass.closed "file:///w/a.ump").workspace.index.fileSymbols "/w/a.ump" =
        [⟨"B", .class, "/w/a.ump", ⟨0, 0⟩, ⟨0, 1⟩, some "B"⟩] := by
  obtain ⟨index, asked⟩ := askedClass_eq
  have documents : askedClass.documents = renamedClass.documents := by
    change askedClass.workspace.documents = _
    rw [asked]
    rfl
  have files : askedClass.workspace.files = renamedClass.workspace.files := by rw [asked]
  have begins : quiet.Begins := ⟨rfl, rfl, ⟨_, _, rfl⟩, rfl⟩
  have alone : renamedClass.documents.Distinct :=
    distinct_of_keys "file:///w/a.ump" (by decide +kernel)
  have opened : openedClass.Served classNames :=
    .request (.begin begins rfl) _ (distinct_of_keys "file:///w/a.ump" (by decide +kernel))
  have renamed : renamedClass.Served classNames := .request opened _ alone
  have served : askedClass.Served classNames := .request renamed _ (documents.symm ▸ alone)
  have found : askedClass.documents.get? "file:///w/a.ump" =
      some ⟨"file:///w/a.ump", some aFile, "C", 2⟩ := by
    rw [documents]
    decide +kernel
  have saved : askedClass.workspace.files.readText? aFile = some "B" := by
    have same : renamedClass.workspace.files.entries.entries = savedClass.entries.entries := by
      decide +kernel
    have linkless (path : Path) : renamedClass.workspace.files.Unlinked path := by
      rw [FileStore.Unlinked, FileStore.entry?, OrderedMap.get?, same]
      exact FileStore.unlinked_put (FileStore.unlinked_initial .allowed) aFile (by simp) path
    rw [files, FileStore.readText?_of_linkless linkless]
    decide +kernel
  obtain ⟨live, left⟩ := served.index_follows
  have live := live _ _ aFile found rfl (by decide +kernel)
  have left := left _ _ aFile found rfl
  have text : aFile.text = "/w/a.ump" := by decide +kernel
  rw [saved] at left
  rw [text] at live left
  exact ⟨served, live.trans (symbolsOf_classNames (by decide)),
    left.trans (symbolsOf_classNames (by decide))⟩

end

end Renamed

end Course

end Session

end ModelAssist
