import Mathlib.Logic.Relation
import ModelAssist.Proofs.Workspace.Reach

/-!
# Chains of imports

A `use` path leads to one canonical path however the directory that it starts from is spelled
(`ImportGraph.paths_are_canonical`), so that files are told apart by their paths alone.  A text
reaches exactly the files that a chain of `use` statements leads to
(`ImportGraph.reaches_iff_chain`).  The first statement of a chain stands in the given text, and
every later one in the text that counts for the file before it: the unsaved text of an open
document, or else the text on disk.
-/

namespace ModelAssist.ImportGraph

open Relation (ReflTransGen)

/-! ### Where `use` paths lead -/

variable [Host]

/-- From a directory that a text writes every `use` path leads to a canonical path. -/
theorem isCanonical_resolve (target directory : String) :
    (resolve target (Path.ofText directory)).IsCanonical := by
  have plain := (Path.isPlain_ofText directory).join (Path.isPlain_ofText target)
  exact (Path.isNormal_normalize _).isCanonical plain.normalize

/-- A `use` path leads to the same file from all spellings of a directory. -/
theorem resolve_normalize (target : String) (directory : Path) :
    resolve target directory.normalize = resolve target directory :=
  Path.normalize_normalize_join directory (Path.ofText target)

/-- The targets of a text do not depend on how the directory is written. -/
theorem targets_normalize (graph : ImportGraph) (path : Path) (text : String)
    (directory : Path) :
    graph.targets path text directory.normalize = graph.targets path text directory := by
  simp only [targets, resolve_normalize]

/-- **Lexical paths are canonical.**  Normalizing any text gives an absolute path whose components
are neither empty nor dots, and normalizing the text of that path gives it again.  A `use` path
leads to such a path from any directory.  This path, like all that a text reaches from there, is the
same whether the directory was normalized before or not. -/
theorem paths_are_canonical :
    (∀ text, (Path.normalized text).IsCanonical) ∧
    (∀ target directory, (resolve target (Path.ofText directory)).IsCanonical) ∧
    (∀ target directory, (resolve target directory).normalize = resolve target directory ∧
      resolve target directory.normalize = resolve target directory) ∧
    ∀ (graph : ImportGraph) (path : Path) (text : String) (directory : Path),
      graph.reachable path text directory.normalize = graph.reachable path text directory := by
  refine ⟨Path.isCanonical_normalized, isCanonical_resolve, fun target directory => ?_,
    fun graph path text directory => ?_⟩
  · exact ⟨Path.normalize_normalize _, resolve_normalize target directory⟩
  · rw [reachable, targets_normalize, reachable]

/-! ### Chains -/

variable (graph : ImportGraph)

/-- Holds if a `use` statement of a text names a file, with relative paths that start from the given
directory. -/
def Names (path : Path) (text : String) (directory target : Path) : Prop :=
  ∃ statement ∈ graph.useStatements path text,
    statement.isFile ∧ resolve statement.target directory = target

/-- Holds of the text that counts for a file: the unsaved one before that on disk. -/
def Shows (file : Path) (text : String) : Prop :=
  graph.documents.textFor? file = some text ∨
    graph.documents.textFor? file = none ∧ graph.files.readText? file = some text

/-- Holds if the text that counts for a file names another file.  A file that cannot be read names
none. -/
def Edge (file target : Path) : Prop :=
  ∃ text, graph.Shows file text ∧ graph.Names file text file.parent target

/-- Holds if a chain of one or more `use` statements leads from a text to a file. -/
def Chain (path : Path) (text : String) (directory target : Path) : Prop :=
  ∃ first, graph.Names path text directory first ∧ ReflTransGen graph.Edge first target

variable {graph}

/-- Named files have normal paths. -/
theorem Names.isNormal {path directory target : Path} {text : String}
    (names : graph.Names path text directory target) : target.IsNormal := by
  obtain ⟨statement, _, _, rfl⟩ := names
  exact Path.isNormal_normalize _

/-- The targets of a text are the files of its `use` statements, resolved from the directory. -/
theorem pair_mem_targets_iff {path directory target : Path} {text : String}
    {statement : UseStatement} :
    (statement, target) ∈ graph.targets path text directory ↔
      statement ∈ graph.useStatements path text ∧ statement.isFile ∧
        target = resolve statement.target directory := by
  simp only [targets, List.mem_map, List.mem_filter, Prod.mk.injEq]
  constructor
  · rintro ⟨other, ⟨listed, isFile⟩, rfl, rfl⟩
    exact ⟨listed, isFile, rfl⟩
  · rintro ⟨listed, isFile, rfl⟩
    exact ⟨statement, ⟨listed, isFile⟩, rfl, rfl⟩

/-- The files that a text names are its targets. -/
theorem mem_targets_iff {path directory target : Path} {text : String} :
    target ∈ (graph.targets path text directory).map (·.2) ↔
      graph.Names path text directory target := by
  simp [targets, Names, and_assoc]

/-- A file is read as the text that it shows. -/
theorem read?_eq_some_iff {file : Path} {text : String} :
    graph.read? file = some text ↔ graph.Shows file text := by
  unfold read? Shows
  cases graph.documents.textFor? file <;> simp

/-- The direct targets of a file are those to which an edge leads. -/
theorem mem_directTargets_iff {file target : Path} :
    target ∈ graph.directTargets file ↔ graph.Edge file target := by
  unfold directTargets Edge
  simp only [← read?_eq_some_iff]
  cases graph.read? file with
  | none => simp
  | some text => simpa using mem_targets_iff

/-- A walk reaches what a chain of imports leads to from where it starts, the start included. -/
theorem mem_reachedFrom_iff {start : List Path} {target : Path} :
    target ∈ graph.reachedFrom start ↔ ∃ first ∈ start, ReflTransGen graph.Edge first target := by
  constructor
  · intro reached
    let Led : Path → Prop := fun file => ∃ first ∈ start, ReflTransGen graph.Edge first file
    have led : ∀ file, Led file → ∀ other ∈ graph.directTargets file, Led other := by
      rintro file ⟨first, member, chain⟩ other leads
      exact ⟨first, member, chain.tail (mem_directTargets_iff.mp leads)⟩
    have begins : ∀ first ∈ start, Led first := fun first member => ⟨first, member, .refl⟩
    exact Walk.reached_induction begins led reached
  · rintro ⟨first, member, chain⟩
    induction chain with
    | refl => exact Walk.start_subset_reached member
    | tail _ edge reached => exact Walk.reached_closed reached (mem_directTargets_iff.mpr edge)

/-- What can be reached are the ends of chains. -/
theorem mem_reachable_iff {path directory target : Path} {text : String} :
    target ∈ graph.reachable path text directory ↔ graph.Chain path text directory target := by
  unfold reachable
  simp only [mem_reachedFrom_iff, mem_targets_iff, Chain]

/-- **A text reaches exactly the files that a chain of imports leads to, each once.**  Imports may
lead in circles, and the file of the text itself is reached if they lead back to it. -/
theorem reaches_iff_chain (graph : ImportGraph) (path : Path) (text : String) :
    (∀ directory target, target ∈ graph.reachableFrom path text directory ↔
      graph.Chain path.normalize text (directory.elim path.normalize.parent Path.normalize)
        target) ∧
    (∀ directory, (graph.reachableFrom path text directory).Nodup) ∧
    ∀ target, graph.imports path.normalize text target ↔
      graph.Chain path.normalize text path.normalize.parent target.normalize := by
  refine ⟨fun directory target => mem_reachable_iff, fun directory => Walk.nodup_reached _ _, ?_⟩
  intro target
  rw [imports, List.contains_iff_mem, mem_reachable_iff]

end ModelAssist.ImportGraph
