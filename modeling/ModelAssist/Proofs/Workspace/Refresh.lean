import ModelAssist.Proofs.Workspace.Lookup

/-!
# What a lookup refreshes

Before a lookup the document and all that it reaches are indexed.  A file that has a live text then
contributes exactly this text to the index.  A file that has none, because it is not open and cannot
be read, goes on contributing what it contributed before (`Workspace.ensureIndexed_contribution`),
so the symbols of a deleted import stay.
-/

namespace ModelAssist

/-- What a file contributes to an index. -/
structure Contribution where
  symbols : List SymbolEntry
  edges : InheritanceEdges

namespace Contribution

/-- A file without a text. -/
def nothing : Contribution := ⟨[], ∅⟩

/-- What a text contributes. -/
def ofText (grammar : Grammar) (file text : String) : Contribution :=
  ⟨SymbolIndex.symbolsOf grammar file text (grammar.parse text),
    Extraction.inheritance (grammar.parse text)⟩

/-- What a file with or without a text contributes. -/
def ofText? (grammar : Grammar) (file : String) : Option String → Contribution
  | some text => ofText grammar file text
  | none => nothing

end Contribution

namespace SymbolIndex

/-- What an index has of a file. -/
def contribution (index : SymbolIndex) (file : String) : Contribution :=
  ⟨index.fileSymbols file, (index.inheritance.byFile.get? file).getD ∅⟩

/-- An index has of every file what the last text of it says. -/
theorem Reachable.contribution_eq {grammar : Grammar} {index : SymbolIndex}
    (reachable : index.Reachable grammar) (file : String) :
    index.contribution file = Contribution.ofText? grammar file (index.text? file) := by
  obtain ⟨steps, rfl⟩ := reachable
  have sound := Indexing.sound_run grammar steps
  rw [contribution, sound.inheritance_eq, OrderedMap.get?_mapValues, fileSymbols, text?,
    sound.files_get?]
  cases (Indexing.run grammar steps).texts file with
  | none => rfl
  | some text => rfl

end SymbolIndex

namespace Workspace

variable {workspace : Workspace} {grammar : Grammar}

/-- **A lookup refreshes what has a live text, and nothing else.**  Of every file that it involves
the index then has exactly what the live text says, if there is one, and else what it had before. -/
theorem ensureIndexed_contribution [Host] (loaded : workspace.grammar = some grammar)
    (reachable : workspace.Reachable) (name text : String) :
    let path := Path.normalized name
    ∀ file ∈ (workspace.ensureIndexed path text).2,
      (workspace.ensureIndexed path text).1.index.contribution file.text =
        match workspace.seen? path text file with
        | some content => Contribution.ofText grammar file.text content
        | none => workspace.index.contribution file.text := by
  intro path file member
  have normal : path.IsNormal := Path.isNormal_normalize _
  have plain : path.IsPlain := (Path.isPlain_ofText _).normalize
  have named : Path.ofText file.text = file := (ofText_text_of_mem_involved normal plain member).2
  have near : file.text ∈ workspace.nearFiles path text := List.mem_map_of_mem member
  have latest : (workspace.ensureIndexed path text).1.index.text? file.text =
      (workspace.seen? path text file <|> workspace.index.text? file.text) := by
    rw [text?_ensureIndexed_eq loaded normal plain, if_pos near, named]
  rw [(reachable.index_ensureIndexed loaded path text).contribution_eq, latest]
  cases workspace.seen? path text file with
  | some content => rfl
  | none => exact ((reachable grammar loaded).contribution_eq file.text).symm

section Deleted

private def oneLine (kind : String) (field : Option String) (text : String)
    (children : List Tree.Node) : Tree.Node :=
  .node ⟨kind, field, 0, 0, ⟨0, 0⟩, ⟨0, 1⟩, some text.toUTF8.toList, false, false, 0, 0⟩ children

private def className : Tree.Node := oneLine "identifier" (some "name") "B" []

private def classNode : Tree.Node := oneLine "class_definition" none "B" [className]

private def classTree : Tree.Node := oneLine "source_file" none "B" [classNode]

/-- A grammar by which the text `B` declares a class and every other text is the path of an
import. -/
private def classOrImport : Grammar where
  parse := fun text =>
    if text = "B" then classTree
    else
      oneLine "source_file" none text
        [oneLine "use_statement" none text [oneLine "use_path" (some "path") text []]]
  nextSymbols := fun _ => []
  definitions := [.withChild "class_definition" (some "name")
    (.leaf "identifier" ["definition.class"]) []]
  references := []
  completions := []

section

open scoped Trial

/-- A file was indexed and then deleted. -/
private def deleted : Workspace where
  grammar := some classOrImport
  documents := ∅
  files := .initial .allowed
  index := ((∅ : SymbolIndex).indexContent classOrImport "/w/b.ump" "B").1

end

private def classSymbol : SymbolEntry := ⟨"B", .class, "/w/b.ump", ⟨0, 0⟩, ⟨0, 1⟩, some "B"⟩

section

open scoped Trial

/-- A file that was indexed and then deleted still contributes its class to a document that imports
it. -/
theorem ensureIndexed_contribution_deleted :
    let path := Path.normalized "/w/a.ump"
    let after := deleted.ensureIndexed path "b.ump"
    ⟨.root, ["w", "b.ump"]⟩ ∈ after.2 ∧
      deleted.seen? path "b.ump" ⟨.root, ["w", "b.ump"]⟩ = none ∧
      classSymbol ∈ (after.1.index.contribution "/w/b.ump").symbols := by
  intro path after
  have reachable : deleted.Reachable := by
    intro grammar loaded
    obtain rfl : classOrImport = grammar := Option.some.inj loaded
    exact (SymbolIndex.Reachable.empty classOrImport).indexFile (.initial .allowed) "/w/b.ump"
      (some "B")
  have involved : ⟨.root, ["w", "b.ump"]⟩ ∈ deleted.involved path "b.ump" :=
    mem_involved.mpr (Or.inr (Walk.start_subset_reached (by decide +kernel)))
  have unread : deleted.seen? path "b.ump" ⟨.root, ["w", "b.ump"]⟩ = none := by
    have linkless : ∀ path, deleted.files.Unlinked path := FileStore.unlinked_initial .allowed
    rw [seen?, if_neg (by decide +kernel), ImportGraph.read?]
    change deleted.files.readText? ⟨.root, ["w", "b.ump"]⟩ = none
    rw [FileStore.readText?_of_linkless linkless]
    decide +kernel
  have kept := ensureIndexed_contribution rfl reachable "/w/a.ump" "b.ump" _ involved
  have named : (⟨.root, ["w", "b.ump"]⟩ : Path).text = "/w/b.ump" := by decide +kernel
  rw [unread, named] at kept
  refine ⟨involved, unread, ?_⟩
  change classSymbol ∈ ((deleted.ensureIndexed path "b.ump").1.index.contribution
    "/w/b.ump").symbols
  rw [kept]
  have captured : ⟨"definition.class", ⟨className, [⟨classNode, 0⟩, ⟨classTree, 0⟩]⟩⟩ ∈
      classOrImport.definitions.captures (Tree.Place.root (classOrImport.parse "B")) := by
    rw [Tree.Query.captures, List.mem_mergeSort]
    exact List.mem_of_getElem? (i := 0) (by rfl)
  exact List.mem_filterMap.mpr ⟨_, captured, by decide +kernel⟩

end

end Deleted

end Workspace

end ModelAssist
