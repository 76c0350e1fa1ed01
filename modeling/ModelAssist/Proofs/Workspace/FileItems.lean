import ModelAssist.Proofs.Completion.TypedText
import ModelAssist.Proofs.FileStore
import ModelAssist.Proofs.Shadow.Place
import ModelAssist.Proofs.Workspace.Lookup
import ModelAssist.Workspace.Completion

/-!
# Which files are offered

In a `use` statement the model files beside the document are offered, and an accepted name takes the
place of what was typed of it.  A lead of digits, dots and slashes does not count as typed: it is
neither compared nor replaced.  Accepted after a lead, a name stands for a file in the folder that
the lead leads to, and a model file whose own name starts with a lead and something after it is not
offered where that much of it was typed (`Workspace.completions_in_use_path`).
-/

namespace ModelAssist

/-- What a run of characters before a cursor becomes when an item is accepted. -/
def CompletionItem.accepted (item : CompletionItem) (run : List Char) : String :=
  String.ofList (run.take (run.length - item.replaced.toNat) ++ item.label.toList)

namespace ImportGraph

/-- What follows the last slash of a `use` path names a file in the folder before it. -/
theorem resolve_append [Host] {folder last : List Char}
    (ends : folder = [] ∨ folder.getLast? = some '/') (clean : '/' ∉ last) (nonempty : last ≠ [])
    (dotless : last ≠ ['.']) (undotted : last ≠ ['.', '.']) (directory : Path) :
    resolve (String.ofList (folder ++ last)) directory =
      (resolve (String.ofList folder) directory).child (String.ofList last) := by
  have named : String.ofList last ≠ ".." := by
    intro same
    exact undotted (by simpa using congrArg String.toList same)
  rw [resolve, Path.ofText_append ends clean nonempty dotless, Path.join_child,
    Path.normalize_child _ named]
  rfl

end ImportGraph

namespace Workspace

open TypedText (IsRun isOfUsePath lead body lineBefore)

/-- Holds of the names of the model files beside a document. -/
structure IsBeside (store : FileStore) (document : Path) (name : String) : Prop where
  listed : ∃ names, store.list document.parent = .ok names ∧ name ∈ names
  isFile : store.isFile (document.parent.child name)
  isModel : isModelName name
  other : name ≠ document.name

/-- The items for files are those of the model files beside the path that match what was typed. -/
theorem mem_fileItems [Host] {workspace : Workspace} {path : Path} {typed : String}
    {item : CompletionItem} :
    item ∈ workspace.fileItems path typed ↔
      ∃ name, IsBeside workspace.files path.normalize name ∧
        CompletionItem.matchesTyped typed name ∧ item = .ofFile name typed := by
  unfold fileItems
  dsimp only
  split
  · next fault failed =>
      simp only [List.not_mem_nil, false_iff, not_exists]
      rintro name ⟨⟨⟨names, listed, -⟩, -⟩, -⟩
      cases failed.symm.trans listed
  · next names listed =>
      simp only [List.mem_map, List.mem_mergeSort, List.mem_filter, Bool.and_eq_true,
        decide_eq_true_eq]
      constructor
      · rintro ⟨name, ⟨among, ⟨⟨isFile, isModel⟩, other⟩, fits⟩, rfl⟩
        exact ⟨name, ⟨⟨names, listed, among⟩, isFile, isModel, other⟩, fits, rfl⟩
      · rintro ⟨name, ⟨⟨names', listed', among⟩, isFile, isModel, other⟩, fits, rfl⟩
        cases listed.symm.trans listed'
        exact ⟨name, ⟨among, ⟨⟨isFile, isModel⟩, other⟩, fits⟩, rfl⟩

/-- Where a `use` path stands, the items are those of the files. -/
theorem completions_eq_fileItems [Host] {workspace : Workspace} {path : Path} {text : String}
    {line column : Nat}
    (uncommented : ¬ (workspace.completionContext path text line column).2.1.isComment)
    (unnamed : ¬ (workspace.completionContext path text line column).2.1.isDefinitionName)
    (usePath : (workspace.completionContext path text line column).2.1.scope = some .usePath) :
    (workspace.completions path text line column).2 =
      workspace.fileItems path (TypedText.usePath text line column) := by
  have files : (workspace.completionContext path text line column).1.files = workspace.files := by
    unfold completionContext
    split
    · rfl
    · obtain ⟨index, same⟩ := workspace.ensureIndexed_eq path.normalize text
      change (workspace.ensureIndexed path.normalize text).1.files = _
      rw [same]
  simp only [completions, uncommented, unnamed, usePath, Bool.or_self, Bool.false_eq_true, if_false]
  simp only [fileItems, files]

/-- The names beside a document hold no slashes, if those in the store hold none. -/
theorem IsBeside.clean {store : FileStore} {document : Path} {name : String}
    (plain : ∀ path ∈ store.entries.keys, path.IsPlain) (beside : IsBeside store document name) :
    '/' ∉ name.toList := by
  obtain ⟨names, listed, among⟩ := beside.listed
  unfold FileStore.list at listed
  split at listed
  · cases listed
    obtain ⟨path, known, named⟩ := List.mem_filterMap.mp among
    simp only [Option.ite_none_right_eq_some, Option.some.injEq] at named
    obtain ⟨⟨nonempty, -⟩, rfl⟩ := named
    rw [Path.name, List.getLast?_eq_some_getLast nonempty, Option.getD_some]
    exact (plain path known _ (List.getLast_mem nonempty)).2.2
  · cases listed
  · cases listed

theorem length_of_isModelName {name : String} (isModel : isModelName name) :
    4 ≤ name.toList.length := by
  have ends : modelSuffix.toList <:+ name.toList := by simpa [isModelName] using isModel
  exact ends.length_le

/-- An accepted name follows the lead. -/
theorem accepted_ofFile (name : String) (run : List Char) :
    (CompletionItem.ofFile name (String.ofList (body run))).accepted run =
      String.ofList (lead run ++ name.toList) := by
  have length : run.length = (lead run).length + (body run).length := by
    rw [← List.length_append, TypedText.lead_append_body]
  have kept : run.take (run.length - (body run).length) = lead run := by
    rw [length, Nat.add_sub_cancel]
    exact (List.prefix_iff_eq_take.mp (List.takeWhile_prefix _)).symm
  simp [CompletionItem.accepted, CompletionItem.ofFile, kept]

/-- Behind a folder and the start of a name, a name beside a document makes a longer name in that
folder. -/
theorem IsBeside.resolve_append [Host] {store : FileStore} {document : Path} {name : String}
    (plain : ∀ path ∈ store.entries.keys, path.IsPlain) (beside : IsBeside store document name)
    {folder stem : List Char} (ends : folder = [] ∨ folder.getLast? = some '/')
    (clean : '/' ∉ stem) (directory : Path) :
    ImportGraph.resolve (String.ofList (folder ++ stem ++ name.toList)) directory =
      (ImportGraph.resolve (String.ofList folder) directory).child
        (String.ofList stem ++ name) := by
  have long := length_of_isModelName beside.isModel
  have longer {short : List Char} (few : short.length < 4) : stem ++ name.toList ≠ short := by
    intro same
    have lengths := congrArg List.length same
    rw [List.length_append] at lengths
    omega
  have clean' : '/' ∉ stem ++ name.toList := by
    rw [List.mem_append, not_or]
    exact ⟨clean, beside.clean plain⟩
  rw [List.append_assoc, ImportGraph.resolve_append ends clean' (longer (by decide))
    (longer (by decide)) (longer (by decide)), String.ofList_append, String.ofList_toList]

/-- A name beside a document stands for the file there. -/
theorem IsBeside.resolve_eq [Host] {store : FileStore} {document : Path} {name : String}
    (plain : ∀ path ∈ store.entries.keys, path.IsPlain) (beside : IsBeside store document name)
    {directory : Path} (normal : directory.IsNormal) :
    ImportGraph.resolve name directory = directory.child name := by
  have here := beside.resolve_append plain (.inl rfl) List.not_mem_nil directory
  simp only [List.nil_append, String.ofList_toList, String.ofList_nil, String.empty_append] at here
  rw [here, ImportGraph.resolve, Path.normalize_join_of_relative normal (by decide)]
  simp [Path.child, show Path.ofText "" = ⟨.working, []⟩ by decide, Path.resolveDots]

/-- **An accepted name stands for a file beside the document if no lead was typed, and otherwise for
a name in the folder of the lead.**  A file whose name starts with all that was typed is missed
exactly if this is a lead and more. -/
theorem completions_in_use_path [Host] {workspace : Workspace}
    (plain : ∀ path ∈ workspace.files.entries.keys, path.IsPlain) (path : Path) (text : String)
    (line column : Nat) :
    let context := (workspace.completionContext path text line column).2.1
    let items := (workspace.completions path text line column).2
    let document := path.normalize
    ¬ context.isComment → ¬ context.isDefinitionName → context.scope = some .usePath →
      ∀ run, IsRun isOfUsePath (lineBefore text line column) run →
        (∀ item ∈ items, item.kind = .file ∧ IsBeside workspace.files document item.label ∧
          (lead run = [] →
            workspace.files.isFile (ImportGraph.resolve (item.accepted run) document.parent) ∧
              isModelName (ImportGraph.resolve (item.accepted run) document.parent).name) ∧
          ∀ folder stem, lead run = folder ++ stem →
            (folder = [] ∨ folder.getLast? = some '/') → '/' ∉ stem →
              ImportGraph.resolve (item.accepted run) document.parent =
                (ImportGraph.resolve (String.ofList folder) document.parent).child
                  (String.ofList stem ++ item.label)) ∧
        ∀ name, IsBeside workspace.files document name → run <+: name.toList →
          ((∃ item ∈ items, item.label = name) ↔ lead run = [] ∨ body run = []) := by
  intro context items document uncommented unnamed usePath run isRun
  have typed : TypedText.usePath text line column = String.ofList (body run) :=
    congrArg String.ofList isRun.lastRun_eq
  have mem_items (item : CompletionItem) : item ∈ items ↔
      ∃ name, IsBeside workspace.files document name ∧
        CompletionItem.matchesTyped (String.ofList (body run)) name ∧
          item = .ofFile name (String.ofList (body run)) := by
    rw [show items = _ from completions_eq_fileItems uncommented unnamed usePath, mem_fileItems,
      typed]
  constructor
  · intro item offered
    obtain ⟨name, beside, -, rfl⟩ := (mem_items item).mp offered
    rw [accepted_ofFile]
    refine ⟨rfl, beside, fun noLead => ?_, fun folder stem split ends clean => ?_⟩
    · have normal : document.parent.IsNormal := (Path.isNormal_normalize path).parent
      rw [noLead, List.nil_append, String.ofList_toList, beside.resolve_eq plain normal]
      exact ⟨beside.isFile, by simpa [Path.child, Path.name] using beside.isModel⟩
    · rw [split]
      exact beside.resolve_append plain ends clean document.parent
  · intro name beside starts
    rw [← CompletionItem.matchesTyped_body_iff isRun.within starts]
    constructor
    · rintro ⟨item, offered, rfl⟩
      obtain ⟨name, -, fits, rfl⟩ := (mem_items item).mp offered
      exact fits
    · intro fits
      exact ⟨_, (mem_items _).mpr ⟨name, beside, fits, rfl⟩, rfl⟩

section Digit

/-- A node of a text of one line. -/
private def useNode (kind : String) (field : Option String) (start stop : Nat)
    (children : List Tree.Node) : Tree.Node :=
  .node ⟨kind, field, start, stop, ⟨0, start⟩, ⟨0, stop⟩, none, false, false, 0, 0⟩ children

private def useStatement : Tree.Node :=
  useNode "use_statement" none 0 6
    [useNode "use" none 0 3 [], useNode "use_path" (some "path") 4 6 []]

private def useFile : Tree.Node := useNode "source_file" none 0 6 [useStatement]

private def useGrammar : Grammar where
  parse := fun _ => useFile
  nextSymbols := fun _ => []
  definitions := []
  references := []
  completions := [.leaf "use_statement" ["scope.use_path"]]

/-- A model file whose name starts with a digit lies beside the document. -/
private def numbered : FileStore :=
  ⟨⟨[(⟨.root, []⟩, .directory), (⟨.root, ["w"]⟩, .directory),
    (⟨.root, ["w", "1b.ump"]⟩, .file [])]⟩, .allowed⟩

private def numberedBench : Workspace := ⟨some useGrammar, ∅, numbered, ∅⟩

private theorem resolve_numbered (path : Path) : numbered.resolve path = path :=
  FileStore.resolve_of_linkless (FileStore.unlinked_of_entries (by simp [numbered])) path

private theorem beside_numbered : IsBeside numbered ⟨.root, ["w", "a.ump"]⟩ "1b.ump" where
  listed := by
    refine ⟨["1b.ump"], ?_, List.mem_singleton_self _⟩
    rw [FileStore.list, FileStore.lookup?, resolve_numbered]
    decide +kernel
  isFile := by
    rw [FileStore.isFile, FileStore.lookup?, resolve_numbered]
    decide +kernel
  isModel := by decide
  other := by decide

private theorem usePath_numbered :
    let context := CompletionContext.atPosition useGrammar useFile "use 1b" 0 6
    context.scope = some .usePath ∧ ¬ context.isComment ∧ ¬ context.isDefinitionName := by
  have found : Tree.Capture.grouped (useGrammar.completions.found (Tree.Place.root useFile)) =
      [⟨"scope.use_path", ⟨useStatement, [⟨useFile, 0⟩]⟩⟩] := by rfl
  have column : Text.byteColumn (Text.lineAt "use 1b".toList 0) 6 = 6 := by decide +kernel
  have scope : CompletionScope.atPoint? useGrammar useFile ⟨0, 6⟩ = some .usePath := by
    rw [CompletionScope.atPoint?, Tree.Query.captures, found, List.mergeSort_singleton]
    decide +kernel
  unfold CompletionContext.atPosition
  simp only [column, scope]
  decide +kernel

section

open scoped Trial

/-- A model file is not offered where the digit that its name starts with was typed as well. -/
theorem completions_in_use_path_digit :
    ¬ ∃ item ∈ (numberedBench.completions (Path.ofText "/w/a.ump") "use 1b" 0 6).2,
      item.label = "1b.ump" := by
  have normalized : (Path.ofText "/w/a.ump").normalize = ⟨.root, ["w", "a.ump"]⟩ := by
    decide +kernel
  have reachable : numberedBench.Reachable := fun grammar _ => SymbolIndex.Reachable.empty grammar
  have loaded : numberedBench.grammar = some useGrammar := rfl
  have current :=
    reachable.index_ensureIndexed loaded (Path.ofText "/w/a.ump").normalize "use 1b"
  have context : (numberedBench.completionContext (Path.ofText "/w/a.ump") "use 1b" 0 6).2.1 =
      CompletionContext.atPosition useGrammar useFile "use 1b" 0 6 :=
    congrArg (CompletionContext.atPosition useGrammar · "use 1b" 0 6) (current.treeFor_eq _ _)
  have plain : ∀ path ∈ numberedBench.files.entries.keys, path.IsPlain := by
    simp [numberedBench, numbered, OrderedMap.keys, Path.IsPlain, Path.isPlainPart]
  have isRun : IsRun isOfUsePath (lineBefore "use 1b" 0 6) ['1', 'b'] := by
    refine ⟨List.all_eq_true.mp (by decide), ['u', 's', 'e', ' '], by decide +kernel, ?_⟩
    intro char last
    obtain rfl : ' ' = char := Option.some.inj last
    decide
  obtain ⟨usePath, uncommented, unnamed⟩ := usePath_numbered
  obtain ⟨-, offered⟩ := completions_in_use_path plain (Path.ofText "/w/a.ump") "use 1b" 0 6
    (context ▸ uncommented) (context ▸ unnamed) (context ▸ usePath) _ isRun
  rw [normalized] at offered
  rw [offered "1b.ump" beside_numbered (by decide)]
  decide

end

end Digit

end Workspace

end ModelAssist
