import ModelAssist.Import.LineMap
import ModelAssist.Symbol.Index

/-!
# Workspaces

The open documents, the files on disk and the index of both.  Before a lookup in a document the
document and all that it imports are indexed: open documents from their unsaved text, and other
files from disk.  Without a grammar nothing is indexed and no imports are seen.
-/

namespace ModelAssist

/-- What lookups work on. -/
structure Workspace where
  /-- The grammar, if one is loaded. -/
  grammar : Option Grammar
  documents : DocumentStore
  files : FileStore
  /-- The index of documents and files. -/
  index : SymbolIndex

namespace Workspace

variable [Host]

/-- The tree of a text at a path. -/
def treeFor? (workspace : Workspace) (path : Path) (text : String) : Option Tree.Node :=
  workspace.grammar.map fun grammar => workspace.index.treeFor grammar path.text text

/-- The `use` statements of a text at a path. -/
def useStatements (workspace : Workspace) (path : Path) (text : String) : List UseStatement :=
  match workspace.treeFor? path text with
  | some tree => Extraction.useStatements tree
  | none => []

/-- What imports are followed through. -/
def imports (workspace : Workspace) : ImportGraph where
  useStatements := workspace.useStatements
  documents := workspace.documents
  files := workspace.files

/-- The files that a text at a normalized path reaches. -/
def reachable (workspace : Workspace) (path : Path) (text : String) : List Path :=
  workspace.imports.reachable path text path.parent

/-- The lines of all imports of a text at a normalized path. -/
def importLines (workspace : Workspace) (path : Path) (text : String) : ImportLines :=
  ImportLines.of workspace.imports path text

/-- The workspace after a file was indexed, and whether that changed the index.  Without a given
content the file is read from disk. -/
def indexFile (workspace : Workspace) (file : String) (content : Option String) :
    Workspace × Bool :=
  match workspace.grammar with
  | none => (workspace, false)
  | some grammar =>
    let (index, changed) := workspace.index.indexFile grammar workspace.files file content
    ({ workspace with index }, changed)

/-- The workspace after one of the files that a document reaches was indexed; the document itself
has the given text. -/
def indexReached (path : Path) (text : String) (workspace : Workspace) (file : Path) : Workspace :=
  let content := if file = path then some text else workspace.documents.textFor? file
  (workspace.indexFile file.text content).1

/-- A document at a normalized path and all that it reaches, in ascending order. -/
def involved (workspace : Workspace) (path : Path) (text : String) : List Path :=
  let reachable := workspace.reachable path text
  Path.sort (if reachable.contains path then reachable else path :: reachable)

/-- The workspace after a document and all that it reaches were indexed, and these files. -/
def ensureIndexed (workspace : Workspace) (path : Path) (text : String) : Workspace × List Path :=
  let files := workspace.involved path text
  (files.foldl (indexReached path text) workspace, files)

/-- The workspace after a document was closed: the saved copy takes its place, if there is one. -/
def documentClosed (workspace : Workspace) (path : Path) : Workspace :=
  let path := path.normalize
  match workspace.files.readText? path with
  | some _ => (workspace.indexFile path.text none).1
  | none => { workspace with index := workspace.index.removeFile path.text }

/-- Holds if a document imports a file other than itself. -/
def dependsOn (workspace : Workspace) (changed : Path) (document : Document) : Bool :=
  match document.path with
  | some path =>
    path ≠ changed && path.suffix = modelSuffix &&
      workspace.imports.imports path document.text changed
  | none => false

/-- The other open documents that import a file. -/
def dependents (workspace : Workspace) (path : Path) : List Document :=
  workspace.documents.documents.filter (workspace.dependsOn path.normalize)

/-- The symbols that lie in some of the given files. -/
def visible (files : List Path) (symbols : List SymbolEntry) : List SymbolEntry :=
  symbols.filter fun symbol => files.contains (Path.normalized symbol.file)

end Workspace

end ModelAssist
