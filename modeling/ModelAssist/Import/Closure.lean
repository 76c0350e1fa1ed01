import ModelAssist.Data.Walk
import ModelAssist.Document
import ModelAssist.FileStore
import ModelAssist.Proofs.FileStore
import ModelAssist.Symbol.Entry

/-!
# Imports

Which files a document reaches through `use` statements that name files.  Relative paths start from
the directory of the file that holds the statement.  The text of an open document counts before
that on disk; a file that cannot be read reaches nothing.
-/

namespace ModelAssist

/-- What imports are followed through. -/
structure ImportGraph where
  useStatements : Path → String → List UseStatement
  documents : DocumentStore
  files : FileStore

namespace ImportGraph

variable [Host]

/-- The text that counts for a path. -/
def read? (graph : ImportGraph) (path : Path) : Option String :=
  match graph.documents.textFor? path with
  | some text => some text
  | none => graph.files.readText? path

/-- The path that a `use` path stands for in a file of the given directory. -/
def resolve (target : String) (directory : Path) : Path :=
  (directory.join (Path.ofText target)).normalize

/-- The `use` statements of a text that name files, with the files that they stand for. -/
def targets (graph : ImportGraph) (path : Path) (text : String) (directory : Path) :
    List (UseStatement × Path) :=
  ((graph.useStatements path text).filter (·.isFile)).map fun statement =>
    (statement, resolve statement.target directory)

/-- The files that the text of a path names directly. -/
def directTargets (graph : ImportGraph) (path : Path) : List Path :=
  match graph.read? path with
  | some text => (graph.targets path text path.parent).map (·.2)
  | none => []

/-- Of the normal paths only finitely many have a text: those of open documents, and those that lead
to an entry of the store. -/
theorem bounded_directTargets (graph : ImportGraph) : Walk.Bounded graph.directTargets := by
  refine ⟨graph.documents.owners.keys ++ graph.files.leading, fun file target named leads => ?_⟩
  have normal : target.normalize = target := by
    simp only [directTargets] at named
    split at named
    · obtain ⟨pair, listed, rfl⟩ := List.mem_map.mp named
      obtain ⟨statement, -, rfl⟩ := List.mem_map.mp listed
      exact Path.normalize_normalize _
    · cases named
  cases unsaved : graph.documents.textFor? target with
  | some text =>
      refine List.mem_append_left _ ((OrderedMap.mem_keys_iff _ _).mpr ?_)
      simp only [DocumentStore.textFor?, DocumentStore.byPath?, normal] at unsaved
      cases owner : graph.documents.owners.get? target with
      | none => simp [owner] at unsaved
      | some uri => rfl
  | none =>
      refine List.mem_append_right _ (FileStore.mem_leading fun missing => ?_)
      simp [directTargets, read?, unsaved, FileStore.readText?, missing] at leads

/-- The files that are reached from some files, these included. -/
def reachedFrom (graph : ImportGraph) (start : List Path) : List Path :=
  Walk.reached graph.directTargets graph.bounded_directTargets start

/-- The files that a text at a normalized path reaches.  The file itself is one of them only if
imports lead back to it. -/
def reachable (graph : ImportGraph) (path : Path) (text : String) (directory : Path) :
    List Path :=
  graph.reachedFrom ((graph.targets path text directory).map (·.2))

/-- The files that a text at any path reaches, with relative paths that start from the given
directory, or from that of the path if none is given. -/
def reachableFrom (graph : ImportGraph) (path : Path) (text : String) (directory : Option Path) :
    List Path :=
  let start := path.normalize
  graph.reachable start text (directory.elim start.parent Path.normalize)

/-- Holds if a text at a path reaches a file. -/
def imports (graph : ImportGraph) (path : Path) (text : String) (target : Path) : Bool :=
  (graph.reachable path text path.parent).contains target.normalize

end ImportGraph

end ModelAssist
