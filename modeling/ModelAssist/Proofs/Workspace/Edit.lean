import ModelAssist.Proofs.Document
import ModelAssist.Proofs.Import.Closure
import ModelAssist.Proofs.Shadow.Place
import ModelAssist.Workspace.Validation

/-!
# What an edit of one document changes for others

Imports are followed through the texts of the files on the way, so whether they lead to a file does
not depend on the text of that file: a chain of imports need not pass its own end.  If they do not
lead to it, its text is never looked at.  An edit of a document hence changes what the validator is
asked only for the document itself and for those that reach it, and these are the same before and
after the edit (`Workspace.Edited.dependents_suffice`).
-/

namespace ModelAssist

open Relation (ReflTransGen)

namespace ImportGraph

variable [Host]

/-- Holds of graphs that see the same statements, and the same texts at all paths but one. -/
structure AgreeExcept (target : Path) (first second : ImportGraph) : Prop where
  statements : first.useStatements = second.useStatements
  reads : ∀ path : Path, path.normalize ≠ target → first.read? path = second.read? path

namespace AgreeExcept

variable {target : Path} {first second : ImportGraph} (agree : AgreeExcept target first second)
include agree

theorem symm : AgreeExcept target second first where
  statements := agree.statements.symm
  reads path elsewhere := (agree.reads path elsewhere).symm

theorem targets_eq (path : Path) (text : String) (directory : Path) :
    first.targets path text directory = second.targets path text directory := by
  rw [targets, targets, agree.statements]

/-- Graphs that agree elsewhere have the same imports elsewhere. -/
theorem directTargets_eq {file : Path} (elsewhere : file.normalize ≠ target) :
    first.directTargets file = second.directTargets file := by
  unfold directTargets
  rw [agree.reads file elsewhere]
  split
  · rw [agree.targets_eq]
  · rfl

/-- The edges up to the first visit of the target are the same in both graphs. -/
private theorem leads {file : Path} (normal : file.IsNormal)
    (chain : ReflTransGen first.Edge file target) : ReflTransGen second.Edge file target := by
  revert normal
  induction chain using ReflTransGen.head_induction_on with
  | refl => exact fun _ => .refl
  | @head file other edge _ ih =>
      intro normal
      by_cases arrived : file = target
      · rw [arrived]
      · have elsewhere : file.normalize ≠ target := normal.normalize_eq.symm ▸ arrived
        have edge' : second.Edge file other := by
          rw [← mem_directTargets_iff, ← agree.directTargets_eq elsewhere, mem_directTargets_iff]
          exact edge
        have normalOther : other.IsNormal := by
          obtain ⟨_, _, names⟩ := edge
          exact names.isNormal
        exact .head edge' (ih normalOther)

private theorem reachable_of_reachable {path directory : Path} {text : String}
    (reached : target ∈ first.reachable path text directory) :
    target ∈ second.reachable path text directory := by
  obtain ⟨file, names, chain⟩ := mem_reachable_iff.mp reached
  have names' : second.Names path text directory file := by
    rw [← mem_targets_iff, ← agree.targets_eq, mem_targets_iff]
    exact names
  exact mem_reachable_iff.mpr ⟨file, names', agree.leads names.isNormal chain⟩

/-- Both graphs lead to the target from the same texts. -/
theorem reaches_iff (path : Path) (text : String) (directory : Path) :
    target ∈ first.reachable path text directory ↔ target ∈ second.reachable path text directory :=
  ⟨agree.reachable_of_reachable, agree.symm.reachable_of_reachable⟩

/-- Walks that do not come across the target are the same in both graphs. -/
theorem reachedFrom_eq {start : List Path} (normal : ∀ file ∈ start, file.IsNormal)
    (avoids : target ∉ first.reachedFrom start) :
    first.reachedFrom start = second.reachedFrom start := by
  refine Walk.reached_congr _ _ fun file reached => ?_
  apply agree.directTargets_eq
  have normalFile : file.IsNormal := by
    obtain ⟨start, member, chain⟩ := mem_reachedFrom_iff.mp reached
    rcases chain.cases_tail with rfl | ⟨_, _, _, _, names⟩
    · exact normal _ member
    · exact names.isNormal
  rw [normalFile.normalize_eq]
  intro same
  exact avoids (same ▸ reached)

/-- The reachable files are the same if the target is not among them. -/
theorem reachable_eq {path directory : Path} {text : String}
    (avoids : target ∉ first.reachable path text directory) :
    first.reachable path text directory = second.reachable path text directory := by
  unfold reachable at avoids ⊢
  rw [← agree.targets_eq]
  exact agree.reachedFrom_eq (fun file member => (mem_targets_iff.mp member).isNormal) avoids

/-- The import lines are the same if the target is not among what is reachable. -/
theorem importLines_eq {path : Path} {text : String}
    (avoids : target ∉ first.reachable path text path.parent) :
    ImportLines.of first path text = ImportLines.of second path text := by
  have reaches : ImportLines.reaches first (first.targets path text path.parent) =
      ImportLines.reaches second (first.targets path text path.parent) := by
    apply List.foldl_ext
    rintro names ⟨statement, file⟩ member
    have names_ := mem_targets_iff.mp (List.mem_map_of_mem (f := Prod.snd) member)
    have normal : ∀ start ∈ [file], start.IsNormal := by
      intro start single
      rw [List.mem_singleton.mp single]
      exact names_.isNormal
    have avoids' : target ∉ first.reachedFrom [file] := by
      intro reached
      obtain ⟨start, single, chain⟩ := mem_reachedFrom_iff.mp reached
      rw [List.mem_singleton.mp single] at chain
      exact avoids (ImportGraph.mem_reachable_iff.mpr ⟨file, names_, chain⟩)
    simp only [agree.reachedFrom_eq normal avoids']
  simp only [ImportLines.of, ← agree.targets_eq, reaches]

end AgreeExcept

end ImportGraph

namespace Shadow

variable {request other : ShadowRequest}

private theorem layOutAll_congr (cancelled : request.cancelled = other.cancelled)
    {files : List Path} (unsaved : ∀ file ∈ files, request.unsaved file = other.unsaved file)
    (root common : Path) (store : FileStore) (asked : List Path) :
    layOutAll request root common store asked files =
      layOutAll other root common store asked files := by
  induction files generalizing store asked with
  | nil => rfl
  | cons first rest ih =>
      obtain ⟨unsavedFirst, unsaved⟩ := List.forall_mem_cons.mp unsaved
      simp only [layOutAll, cancelled, unsavedFirst]
      split
      · rfl
      · split
        · rfl
        · split
          · rfl
          · split
            · rfl
            · exact ih unsaved _ _

/-- Of the unsaved texts only those of the reachable files find their way into a shadow. -/
theorem enter_congr [Host] (document : request.document = other.document)
    (text : request.text = other.text) (reachable : request.reachable = other.reachable)
    (cancelled : request.cancelled = other.cancelled)
    (unsaved : ∀ file ∈ request.reachable, request.unsaved file.normalize =
      other.unsaved file.normalize) (number : Nat) (store : FileStore) :
    enter request number store = enter other number store := by
  have paths : paths request = paths other := by
    unfold Shadow.paths
    rw [document, reachable]
  have extent : extent request = extent other := by
    unfold Shadow.extent
    rw [paths, document]
  have fill : ∀ root store, fill request root store = fill other root store := by
    intro root store
    obtain ⟨parts, covered, -⟩ := extent_eq request
    simp only [Shadow.fill, ← extent, covered, ← document]
    rw [layOutAll_congr cancelled]
    · simp only [writeDocument, document, text, cancelled]
    · intro file member
      obtain ⟨listed, different⟩ := List.mem_filter.mp member
      rcases mem_paths_iff.mp listed with own | reached
      · exact absurd own (of_decide_eq_true different)
      · obtain ⟨source, given, rfl⟩ := List.mem_map.mp reached
        exact unsaved source given
  simp only [enter, fill]

end Shadow

namespace Workspace

section

variable [Host]

/-- Holds of two workspaces that differ in the text of one open document, and in what was indexed
before. -/
structure Edited (first second : Workspace) (uri : String) (target : Path) : Prop where
  grammar : first.grammar = second.grammar
  files : first.files = second.files
  opened : ∃ document, first.documents.get? uri = some document ∧ document.path = some target
  documents : ∃ text version, second.documents = first.documents.update uri text version

/-- Holds of two workspaces in which the validator is asked the same about a text. -/
structure ValidateAlike (first second : Workspace) (path : Path) (text : String) : Prop where
  reachable : first.reachable path text = second.reachable path text
  importLines : first.importLines path text = second.importLines path text
  unsaved : ∀ file ∈ first.reachable path text,
    first.documents.textFor? file = second.documents.textFor? file
  /-- The shadow comes about in the same way and holds the same files. -/
  shadow : ∀ (bench : Workbench) (cancelled : Option String),
    let enter := fun workspace => Validation.enter path text cancelled { bench with workspace }
    (enter first).2 = (enter second).2 ∧
      (enter first).1.workspace.files = (enter second).1.workspace.files

namespace Edited

variable {first second : Workspace} {uri : String} {target : Path}
  (edited : first.Edited second uri target)
include edited

/-- Except at the path of the document the unsaved texts are the same. -/
theorem textFor?_eq (coherent : first.documents.Coherent) {path : Path}
    (elsewhere : path.normalize ≠ target) :
    first.documents.textFor? path = second.documents.textFor? path := by
  obtain ⟨document, found, located⟩ := edited.opened
  obtain ⟨text, version, same⟩ := edited.documents
  have apart : Uri.path? uri ≠ some path.normalize := by
    rw [← (coherent.named uri document found).2, located]
    exact fun same => elsewhere (Option.some.inj same).symm
  rw [same, coherent.textFor?_update (by rw [found]; rfl) text version apart]

/-- Workspaces that differ in one file have import graphs that agree elsewhere. -/
theorem agreeExcept (coherent : first.documents.Coherent) (reachable : first.Reachable)
    (reachable' : second.Reachable) :
    ImportGraph.AgreeExcept target first.imports second.imports where
  statements := by
    funext path text
    change first.useStatements path text = second.useStatements path text
    rw [reachable.useStatements_eq, reachable'.useStatements_eq, edited.grammar]
  reads path elsewhere := by
    simp only [ImportGraph.read?, imports, edited.textFor?_eq coherent elsewhere, edited.files]

/-- The list of documents is the same but for the one that was edited. -/
private theorem filter_documents {keep : Document → Bool}
    (own : ∀ document : Document, document.path = some target → keep document = false) :
    first.documents.documents.filter keep = second.documents.documents.filter keep := by
  obtain ⟨document, found, located⟩ := edited.opened
  obtain ⟨text, version, same⟩ := edited.documents
  simp only [same, DocumentStore.update, found, DocumentStore.documents]
  exact (OrderedMap.filter_values_insert found (own document located)
    (own { document with text, version } located)).symm

/-- The same open documents import the edited one before and after the edit. -/
private theorem dependents_eq (agree : ImportGraph.AgreeExcept target first.imports second.imports)
    {spelling : Path} (named : spelling.normalize = target) :
    first.dependents spelling = second.dependents spelling := by
  have same : first.dependsOn target = second.dependsOn target := by
    funext document
    unfold dependsOn
    split
    · next path located =>
        have imports_ : first.imports.imports path document.text target =
            second.imports.imports path document.text target := by
          have normal : target.normalize = target := by
            rw [← named, Path.normalize_normalize]
          rw [Bool.eq_iff_iff]
          simp only [ImportGraph.imports, List.contains_iff_mem, normal]
          exact agree.reaches_iff path document.text path.parent
        rw [imports_]
    · rfl
  have own : ∀ document : Document, document.path = some target →
      second.dependsOn target document = false := by
    intro document located
    simp [dependsOn, located]
  rw [dependents, dependents, named, same, edited.filter_documents own]

private theorem validateAlike (coherent : first.documents.Coherent)
    (agree : ImportGraph.AgreeExcept target first.imports second.imports) {path : Path}
    {text : String} (avoids : target ∉ first.reachable path text) :
    first.ValidateAlike second path text := by
  have reachable : first.reachable path text = second.reachable path text :=
    agree.reachable_eq avoids
  have unsaved : ∀ file ∈ first.reachable path text,
      first.documents.textFor? file.normalize = second.documents.textFor? file.normalize := by
    intro file reached
    apply edited.textFor?_eq coherent
    rw [Path.normalize_normalize, (ImportGraph.isNormal_of_mem_reachable reached).normalize_eq]
    exact fun same => avoids (same ▸ reached)
  refine ⟨reachable, agree.importLines_eq avoids, ?_, ?_⟩
  · intro file reached
    rw [← (ImportGraph.isNormal_of_mem_reachable reached).normalize_eq]
    exact unsaved file reached
  · intro bench cancelled
    have entered : Shadow.enter (Validation.shadowRequest first path text cancelled)
          (bench.shadows + 1) first.files =
        Shadow.enter (Validation.shadowRequest second path text cancelled)
          (bench.shadows + 1) second.files := by
      rw [← edited.files]
      apply Shadow.enter_congr
      · rfl
      · rfl
      · exact reachable
      · rfl
      · exact fun file reached => congrArg Except.ok (unsaved file reached)
    simp only [Validation.enter, Validation.makeShadow, entered, Workbench.withFiles, and_self]

/-- **After an edit it is enough to validate the edited document and those that import it.**  Which
documents import it does not depend on its own text, and about a text that does not lead to it the
validator is asked the same as before. -/
theorem dependents_suffice (stored : first.documents.Reachable) (reachable : first.Reachable)
    (reachable' : second.Reachable) :
    (∀ path text, target ∈ first.reachable path text ↔ target ∈ second.reachable path text) ∧
    (∀ spelling : Path, spelling.normalize = target →
      first.dependents spelling = second.dependents spelling) ∧
    ∀ path text, target ∉ first.reachable path text → first.ValidateAlike second path text := by
  have agree := edited.agreeExcept stored.coherent reachable reachable'
  refine ⟨fun path text => ?_, fun spelling named => ?_, fun path text avoids => ?_⟩
  · exact agree.reaches_iff path text path.parent
  · exact edited.dependents_eq agree named
  · exact edited.validateAlike stored.coherent agree avoids

end Edited

end

/-- A tree with one `use` statement whose path is the whole text. -/
private def importTree (text : String) : Tree.Node :=
  let node := fun kind field children => Tree.Node.node
    ⟨kind, field, 0, 0, ⟨0, 0⟩, ⟨0, 0⟩, some text.toUTF8.toList, false, false, 0, 0⟩ children
  node "source_file" none [node "use_statement" none [node "use_path" (some "path") []]]

section

open scoped Trial

private def openModels : DocumentStore :=
  ((DocumentStore.empty.openDocument "file:///w/a.ump" "b.ump" 1).openDocument
    "file:///w/b.ump" "" 1).openDocument "file:///w/c.ump" "" 1

/-- One model imports a second one and a third one nothing. -/
private def unedited : Workspace where
  grammar := some ⟨⟨importTree, fun _ => []⟩, [], [], []⟩
  documents := openModels
  files := FileStore.initial .allowed
  index := ∅

/-- The imported model was changed to import its importer. -/
private def circular : Workspace :=
  { unedited with documents := openModels.update "file:///w/b.ump" "a.ump" 2 }

/-- An edit that closes a circle of imports leaves the importer a dependent and a stranger alone. -/
theorem dependents_suffice_circular :
    unedited.Edited circular "file:///w/b.ump" ⟨.root, ["w", "b.ump"]⟩ ∧
      ⟨.root, ["w", "b.ump"]⟩ ∈ circular.reachable ⟨.root, ["w", "a.ump"]⟩ "b.ump" ∧
      unedited.dependents ⟨.root, ["w", "b.ump"]⟩ = circular.dependents ⟨.root, ["w", "b.ump"]⟩ ∧
      unedited.ValidateAlike circular ⟨.root, ["w", "c.ump"]⟩ "" := by
  have edited : unedited.Edited circular "file:///w/b.ump" ⟨.root, ["w", "b.ump"]⟩ :=
    ⟨rfl, rfl, ⟨⟨"file:///w/b.ump", some ⟨.root, ["w", "b.ump"]⟩, "", 1⟩, by decide +kernel, rfl⟩,
      "a.ump", 2, rfl⟩
  have stored : unedited.documents.Reachable :=
    .openDocument _ _ _ (.openDocument _ _ _ (.openDocument _ _ _ .empty))
  have reachable : unedited.Reachable := fun grammar _ => SymbolIndex.Reachable.empty grammar
  have reachable' : circular.Reachable := fun grammar _ => SymbolIndex.Reachable.empty grammar
  obtain ⟨importers, dependents, others⟩ :=
    Edited.dependents_suffice edited stored reachable reachable'
  refine ⟨edited, ?_, dependents _ (by decide +kernel), others _ _ ?_⟩
  · rw [← importers]
    exact Walk.start_subset_reached (by decide +kernel)
  · intro reached
    have importless : (unedited.imports.targets ⟨.root, ["w", "c.ump"]⟩ ""
        (Path.parent ⟨.root, ["w", "c.ump"]⟩)).map (·.2) = [] := by decide +kernel
    obtain ⟨first, names, -⟩ := ImportGraph.mem_reachable_iff.mp reached
    rw [← ImportGraph.mem_targets_iff, importless] at names
    cases names

end

end Workspace

end ModelAssist
