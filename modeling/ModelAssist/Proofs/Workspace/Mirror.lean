import ModelAssist.Proofs.Document
import ModelAssist.Proofs.Workspace.Lookup
import ModelAssist.Workspace.Completion
import ModelAssist.Workspace.Definition

/-!
# Indexes that mirror the open documents

An index mirrors the open documents if it has the live text of every model among them.  When a
document is opened or changed, the index lags behind in this one until it is indexed
(`Workspace.Lags`), and nothing that is indexed of another file spoils it, since different open
documents have different paths.  A lookup indexes open documents from their live texts alone.
-/

namespace ModelAssist

/-- The path of a document is one that its text reads back as. -/
theorem Uri.isNormal_isPlain_of_path? [Host] {uri : String} {path : Path}
    (located : path? uri = some path) : path.IsNormal ∧ path.IsPlain := by
  unfold path? at located
  split at located
  · cases located
  · cases located
  · rw [← Option.some.inj located]
    exact ⟨Path.isNormal_normalize _, (Path.isPlain_ofText _).normalize⟩

namespace Workspace

/-- Holds of workspaces whose documents own their paths, and whose index some changes by the grammar
led to. -/
structure Tended [Host] (grammar : Grammar) (workspace : Workspace) : Prop where
  loaded : workspace.grammar = some grammar
  reachable : workspace.Reachable
  coherent : workspace.documents.Coherent
  owns : workspace.documents.Owns

/-- Holds of a document if the index has its live text, as far as it is an open model. -/
def Follows (workspace : Workspace) (uri : String) : Prop :=
  ∀ document path, workspace.documents.get? uri = some document → document.path = some path →
    path.suffix = modelSuffix → workspace.index.text? path.text = some document.text

variable [Host]

/-- Holds if the index has the live text of every open model. -/
structure Mirrors (grammar : Grammar) (workspace : Workspace) : Prop
    extends Tended grammar workspace where
  follows : ∀ uri, workspace.Follows uri

/-- Holds if the index has the live text of every open model but perhaps one. -/
structure Lags (grammar : Grammar) (uri : String) (workspace : Workspace) : Prop
    extends Tended grammar workspace where
  follows : ∀ other, other ≠ uri → workspace.Follows other

variable {grammar : Grammar} {workspace : Workspace}

namespace Tended

variable (tended : workspace.Tended grammar)
include tended

/-- The paths of documents are normal and plain. -/
theorem isNormal_isPlain {uri : String} {document : Document} {path : Path}
    (found : workspace.documents.get? uri = some document) (located : document.path = some path) :
    path.IsNormal ∧ path.IsPlain :=
  Uri.isNormal_isPlain_of_path? ((tended.coherent.named uri document found).2.symm.trans located)

/-- Another path is indexed under another name. -/
theorem text_ne {uri : String} {document : Document} {path path' : Path}
    (found : workspace.documents.get? uri = some document) (located : document.path = some path')
    (normal : path.IsNormal) (plain : path.IsPlain) (different : path' ≠ path) :
    path'.text ≠ path.text := by
  obtain ⟨normal', plain'⟩ := tended.isNormal_isPlain found located
  intro same
  exact different (Path.eq_of_text_eq normal'.absolute plain' normal.absolute plain same)

theorem amendIndex {index : SymbolIndex} (reachable : { workspace with index }.Reachable) :
    { workspace with index }.Tended grammar :=
  ⟨tended.loaded, reachable, tended.coherent, tended.owns⟩

theorem amendDocuments {documents : DocumentStore} (coherent : documents.Coherent)
    (owns : documents.Owns) : { workspace with documents }.Tended grammar :=
  ⟨tended.loaded, tended.reachable, coherent, owns⟩

theorem indexFile (file : String) (content : Option String) :
    (workspace.indexFile file content).1.Tended grammar := by
  obtain ⟨index, indexed⟩ := workspace.indexFile_eq file content
  have reachable := tended.reachable.indexFile file content
  rw [indexed] at reachable ⊢
  exact tended.amendIndex reachable

theorem documentClosed (path : Path) : (workspace.documentClosed path).Tended grammar := by
  obtain ⟨index, closed⟩ := workspace.documentClosed_eq path
  have reachable := tended.reachable.documentClosed path
  rw [closed] at reachable ⊢
  exact tended.amendIndex reachable

theorem ensureIndexed (path : Path) (text : String) :
    (workspace.ensureIndexed path text).1.Tended grammar := by
  obtain ⟨index, indexed⟩ := workspace.ensureIndexed_eq path text
  have reachable := tended.reachable.ensureIndexed path text
  rw [indexed] at reachable ⊢
  exact tended.amendIndex reachable

/-- The symbols of a file are those that its last text declares. -/
theorem fileSymbols_eq (file : String) :
    workspace.index.fileSymbols file = Indexing.symbolsIn grammar workspace.index.text? file :=
  (tended.reachable grammar tended.loaded).fileSymbols_eq file

theorem text?_indexFile (file text other : String) :
    (workspace.indexFile file (some text)).1.index.text? other =
      if other = file then some text else workspace.index.text? other := by
  simp only [Workspace.indexFile, tended.loaded]
  exact SymbolIndex.text?_indexFile workspace.index grammar workspace.files rfl other

/-- A closed document leaves its saved text behind. -/
theorem text?_documentClosed {path : Path} (normal : path.IsNormal) (plain : path.IsPlain)
    (other : String) :
    (workspace.documentClosed path).index.text? other =
      if other = path.text then workspace.files.readText? path
      else workspace.index.text? other := by
  simp only [Workspace.documentClosed, normal.normalize_eq]
  cases saved : workspace.files.readText? path with
  | none => exact SymbolIndex.text?_removeFile _ _ _
  | some text =>
      simp only [Workspace.indexFile, tended.loaded]
      apply SymbolIndex.text?_indexFile
      rw [Path.ofText_text normal.absolute plain]
      exact saved

end Tended

namespace Lags

variable {uri : String} (lags : workspace.Lags grammar uri)
include lags

/-- The index does not lag behind if it has the text of the one document. -/
theorem mirrors (follows : workspace.Follows uri) : workspace.Mirrors grammar := by
  refine ⟨lags.toTended, fun other => ?_⟩
  by_cases same : other = uri
  · exact same ▸ follows
  · exact lags.follows other same

/-- The index catches up when the one document is indexed. -/
theorem indexFile {document : Document} {path : Path}
    (found : workspace.documents.get? uri = some document)
    (located : document.path = some path) :
    (workspace.indexFile path.text (some document.text)).1.Mirrors grammar := by
  obtain ⟨normal, plain⟩ := lags.isNormal_isPlain found located
  refine ⟨lags.toTended.indexFile _ _, ?_⟩
  intro other document' path' found' located' isModel
  rw [lags.text?_indexFile]
  obtain ⟨index, indexed⟩ := workspace.indexFile_eq path.text (some document.text)
  rw [indexed] at found'
  by_cases same : other = uri
  · subst same
    obtain rfl := Option.some.inj (found.symm.trans found')
    obtain rfl := Option.some.inj (located.symm.trans located')
    rw [if_pos rfl]
  · have different : path' ≠ path := by
      rintro rfl
      exact same (lags.owns.distinct _ _ _ _ _ found' found located' located)
    rw [if_neg (lags.text_ne found' located' normal plain different)]
    exact lags.follows other same document' path' found' located' isModel

end Lags

namespace Mirrors

variable (mirrors : workspace.Mirrors grammar)
include mirrors

/-- The symbols of an open model are those that its live text declares. -/
theorem fileSymbols_eq {uri : String} {document : Document} {path : Path}
    (found : workspace.documents.get? uri = some document)
    (located : document.path = some path) (isModel : path.suffix = modelSuffix) :
    workspace.index.fileSymbols path.text =
      SymbolIndex.symbolsOf grammar path.text document.text (grammar.parse document.text) := by
  rw [mirrors.toTended.fileSymbols_eq, Indexing.symbolsIn,
    mirrors.follows uri document path found located isModel]

/-- The index lags behind in an opened document alone. -/
theorem openDocument {uri text : String} {version : Int}
    (distinct : (workspace.documents.openDocument uri text version).Distinct) :
    Lags grammar uri
      { workspace with documents := workspace.documents.openDocument uri text version } where
  toTended := mirrors.amendDocuments (mirrors.coherent.openDocument uri text version)
    (mirrors.owns.openDocument distinct)
  follows := by
    intro other different document path found
    apply mirrors.follows other document path
    rw [← workspace.documents.get?_openDocument_of_ne uri text version different]
    exact found

/-- The index lags behind in a changed document alone. -/
theorem update {uri : String} (opened : (workspace.documents.get? uri).isSome) (text : String)
    (version : Int) :
    Lags grammar uri
      { workspace with documents := workspace.documents.update uri text version } where
  toTended := mirrors.amendDocuments (mirrors.coherent.update uri text version)
    (mirrors.owns.update opened text version)
  follows := by
    intro other different document path found
    apply mirrors.follows other document path
    rw [← workspace.documents.get?_update_of_ne uri text version different]
    exact found

theorem close (uri : String) :
    { workspace with documents := workspace.documents.close uri }.Mirrors grammar where
  toTended := mirrors.amendDocuments (mirrors.coherent.close uri) (mirrors.owns.close uri)
  follows := by
    intro other document path found
    apply mirrors.follows other document path
    change (workspace.documents.close uri).get? other = some document at found
    rw [workspace.documents.get?_close] at found
    split at found
    · cases found
    · exact found

/-- Falling back to the saved text of a file keeps the live texts if no open document is at its
path. -/
theorem documentClosed {path : Path} (normal : path.IsNormal) (plain : path.IsPlain)
    (free : ∀ uri document, workspace.documents.get? uri = some document →
      document.path ≠ some path) :
    (workspace.documentClosed path).Mirrors grammar := by
  refine ⟨mirrors.toTended.documentClosed path, ?_⟩
  intro uri document path' found located isModel
  obtain ⟨index, closed⟩ := workspace.documentClosed_eq path
  rw [mirrors.text?_documentClosed normal plain]
  rw [closed] at found
  have different : path' ≠ path := fun same => free uri document found (same ▸ located)
  rw [if_neg (mirrors.text_ne found located normal plain different)]
  exact mirrors.follows uri document path' found located isModel

/-- A lookup from an open document sees the live texts of the open documents. -/
theorem seen?_eq {uri other : String} {document document' : Document} {path path' : Path}
    (found : workspace.documents.get? uri = some document) (located : document.path = some path)
    (found' : workspace.documents.get? other = some document')
    (located' : document'.path = some path') :
    workspace.seen? path document.text path' = some document'.text := by
  unfold seen?
  split
  · next same =>
      subst same
      obtain rfl := mirrors.owns.distinct _ _ _ _ _ found' found located' located
      rw [Option.some.inj (found'.symm.trans found)]
  · have unsaved := mirrors.owns.textFor?_eq found' located'
      (mirrors.isNormal_isPlain found' located').1
    simp only [ImportGraph.read?, imports, unsaved]

/-- **A lookup from an open document keeps the live texts.** -/
theorem ensureIndexed {uri : String} {document : Document} {path : Path}
    (found : workspace.documents.get? uri = some document)
    (located : document.path = some path) :
    (workspace.ensureIndexed path document.text).1.Mirrors grammar := by
  obtain ⟨normal, plain⟩ := mirrors.isNormal_isPlain found located
  refine ⟨mirrors.toTended.ensureIndexed path document.text, ?_⟩
  intro other document' path' found' located' isModel
  obtain ⟨index, indexed⟩ := workspace.ensureIndexed_eq path document.text
  rw [text?_ensureIndexed_eq mirrors.loaded normal plain]
  rw [indexed] at found'
  split
  · obtain ⟨normal', plain'⟩ := mirrors.isNormal_isPlain found' located'
    rw [Path.ofText_text normal'.absolute plain',
      mirrors.seen?_eq found located found' located']
    rfl
  · exact mirrors.follows other document' path' found' located' isModel

/-- Completion keeps the live texts. -/
theorem completions {uri : String} {document : Document} {path : Path}
    (found : workspace.documents.get? uri = some document)
    (located : document.path = some path) (line column : Nat) :
    (workspace.completions path document.text line column).1.Mirrors grammar := by
  have normal := (mirrors.isNormal_isPlain found located).1
  simp only [Workspace.completions, completionContext, mirrors.loaded, normal.normalize_eq]
  exact mirrors.ensureIndexed found located

/-- Looking up definitions keeps the live texts. -/
theorem definitions {uri : String} {document : Document} {path : Path}
    (found : workspace.documents.get? uri = some document)
    (located : document.path = some path) (line column : Nat) :
    (workspace.definitions path document.text line column).1.Mirrors grammar := by
  have normal := (mirrors.isNormal_isPlain found located).1
  simp only [Workspace.definitions, mirrors.loaded, normal.normalize_eq]
  split
  · exact mirrors
  · split
    · exact mirrors
    · exact mirrors.ensureIndexed found located

end Mirrors

/-- Completion changes nothing but the index. -/
theorem completions_fst (workspace : Workspace) (path : Path) (text : String)
    (line column : Nat) :
    ∃ index, (workspace.completions path text line column).1 = { workspace with index } := by
  change ∃ index, (workspace.completionContext path text line column).1 = { workspace with index }
  unfold completionContext
  split
  · exact ⟨workspace.index, rfl⟩
  · exact workspace.ensureIndexed_eq path.normalize text

end Workspace

end ModelAssist
