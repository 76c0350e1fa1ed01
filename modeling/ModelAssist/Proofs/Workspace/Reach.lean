import ModelAssist.Proofs.Path
import ModelAssist.Proofs.Symbol.Index
import ModelAssist.Proofs.Walk
import ModelAssist.Workspace.Basic

/-!
# What a document reaches

The files that a document reaches depend on the grammar, on the open documents and on the files on
disk, but not on what was indexed (`Workspace.useStatements_eq`).  They do not change while none of
them changes (`Workspace.reachable_congr`).
-/

namespace ModelAssist

namespace ImportGraph

variable {graph : ImportGraph}

private theorem reachable_induction [Host] {holds : Path → Prop} {directory : Path}
    (own : ∀ target, holds (resolve target directory))
    (others : ∀ file : Path, holds file → ∀ target, holds (resolve target file.parent))
    {path target : Path} {text : String} (reached : target ∈ graph.reachable path text directory) :
    holds target := by
  have named : ∀ path text directory, (∀ target, holds (resolve target directory)) →
      ∀ file ∈ (graph.targets path text directory).map (·.2), holds file := by
    intro path text directory resolved file member
    obtain ⟨pair, listed, rfl⟩ := List.mem_map.mp member
    obtain ⟨statement, _, rfl⟩ := List.mem_map.mp listed
    exact resolved _
  refine Walk.reached_induction (named path text directory own) ?_ reached
  intro file held other leads
  unfold directTargets at leads
  split at leads
  · exact named _ _ _ (others file held) other leads
  · cases leads

/-- What is reached is normal. -/
theorem isNormal_of_mem_reachable [Host] {path directory target : Path} {text : String}
    (reached : target ∈ graph.reachable path text directory) : target.IsNormal :=
  reachable_induction (fun _ => Path.isNormal_normalize _)
    (fun _ _ _ => Path.isNormal_normalize _) reached

/-- Files reachable from a plain directory are plain. -/
theorem isPlain_of_mem_reachable [Host] {path directory target : Path} {text : String}
    (plain : directory.IsPlain) (reached : target ∈ graph.reachable path text directory) :
    target.IsPlain := by
  have resolved : ∀ (directory : Path), directory.IsPlain → ∀ target,
      (resolve target directory).IsPlain :=
    fun _ plain target => (plain.join (Path.isPlain_ofText target)).normalize
  exact reachable_induction (resolved directory plain)
    (fun file plain => resolved file.parent plain.parent) reached

/-- Graphs in which the same statements are seen, and that differ in exempt files only, reach the
same from a text that reaches no exempt file in one of them. -/
theorem reachable_congr [Host] {first second : ImportGraph}
    (statements : first.useStatements = second.useStatements) {exempt : Path → Prop}
    (reads : ∀ path : Path, ¬ exempt path.normalize → first.read? path = second.read? path)
    {path directory : Path} {text : String}
    (avoids : ∀ other ∈ first.reachable path text directory, ¬ exempt other) :
    first.reachable path text directory = second.reachable path text directory := by
  have targets : ∀ path text directory,
      first.targets path text directory = second.targets path text directory := by
    intro path text directory
    rw [ImportGraph.targets, ImportGraph.targets, statements]
  have direct : ∀ other ∈ first.reachable path text directory,
      first.directTargets other = second.directTargets other := by
    intro other reached
    have different : ¬ exempt other.normalize := by
      rw [(isNormal_of_mem_reachable reached).normalize_eq]
      exact avoids other reached
    unfold directTargets
    rw [reads other different]
    split
    · rw [targets]
    · rfl
  unfold reachable reachedFrom at direct ⊢
  rw [← targets]
  exact Walk.reached_congr _ _ direct

end ImportGraph

namespace Workspace

/-- Holds of the workspaces whose index some changes led to. -/
def Reachable (workspace : Workspace) : Prop :=
  ∀ grammar, workspace.grammar = some grammar → workspace.index.Reachable grammar

/-- The `use` statements of a text, by a grammar if there is one. -/
def statementsOf : Option Grammar → String → List UseStatement
  | none, _ => []
  | some grammar, text => Extraction.useStatements (grammar.parse text)

namespace Reachable

variable {workspace : Workspace} (reachable : workspace.Reachable)
include reachable

/-- The `use` statements of a text depend on the grammar alone. -/
theorem useStatements_eq (path : Path) (text : String) :
    workspace.useStatements path text = statementsOf workspace.grammar text := by
  unfold Workspace.useStatements treeFor?
  cases loaded : workspace.grammar with
  | none => rfl
  | some grammar =>
      simp only [Option.map_some]
      rw [(reachable grammar loaded).treeFor_eq]
      rfl

theorem indexFile (file : String) (content : Option String) :
    (workspace.indexFile file content).1.Reachable := by
  unfold Workspace.indexFile
  split
  · exact reachable
  · next grammar loaded =>
      intro other loaded'
      have same : grammar = other := Option.some.inj (loaded.symm.trans loaded')
      rw [← same]
      exact (reachable grammar loaded).indexFile workspace.files file content

theorem documentClosed [Host] (path : Path) : (workspace.documentClosed path).Reachable := by
  simp only [Workspace.documentClosed]
  split
  · exact reachable.indexFile _ _
  · exact fun grammar loaded => (reachable grammar loaded).removeFile _

end Reachable

/-- Workspaces with one grammar and the same files on disk, whose documents differ in exempt files
only, reach the same from a text that reaches no exempt file in one of them. -/
theorem reachable_congr [Host] {first second : Workspace} (reachable : first.Reachable)
    (reachable' : second.Reachable) (grammar : first.grammar = second.grammar)
    (files : first.files = second.files) {exempt : Path → Prop}
    (texts : ∀ path : Path, ¬ exempt path.normalize →
      first.documents.textFor? path = second.documents.textFor? path)
    {path : Path} {text : String} (avoids : ∀ other ∈ first.reachable path text, ¬ exempt other) :
    first.reachable path text = second.reachable path text := by
  refine ImportGraph.reachable_congr ?_ ?_ avoids
  · funext path text
    change first.useStatements path text = second.useStatements path text
    rw [reachable.useStatements_eq, reachable'.useStatements_eq, grammar]
  · intro path kept
    simp only [ImportGraph.read?, imports, texts path kept, files]

/-- Indexing a file touches the index alone. -/
theorem indexFile_eq (workspace : Workspace) (file : String) (content : Option String) :
    ∃ index, (workspace.indexFile file content).1 = { workspace with index } := by
  unfold Workspace.indexFile
  split
  · exact ⟨workspace.index, rfl⟩
  · exact ⟨_, rfl⟩

/-- Closing a document touches the index alone. -/
theorem documentClosed_eq [Host] (workspace : Workspace) (path : Path) :
    ∃ index, workspace.documentClosed path = { workspace with index } := by
  simp only [documentClosed]
  split
  · exact workspace.indexFile_eq _ _
  · exact ⟨_, rfl⟩

end Workspace

end ModelAssist
