import ModelAssist.FileStore
import ModelAssist.Grammar.Basic
import ModelAssist.Symbol.Extraction

/-!
# The symbol index

The symbols and the inheritance edges of all indexed files.  A new content of a file replaces all
that the file contributed before; the same content changes nothing.
-/

namespace ModelAssist

/-- What the index keeps of a file. -/
structure IndexedFile where
  content : String
  tree : Tree.Node
  symbols : List SymbolEntry
deriving Inhabited

/-- The symbols and the inheritance edges of the indexed files. -/
structure SymbolIndex where
  files : OrderedMap String IndexedFile
  /-- Their symbols, by container. -/
  registry : Registry
  /-- Their inheritance edges. -/
  inheritance : Inheritance
deriving Inhabited

/-- Which symbols are looked up. -/
structure SymbolQuery where
  /-- The container, or all of them. -/
  container : Option String
  filter : SymbolFilter
  /-- Set if the ancestors of the container count as well. -/
  inherited : Bool
deriving DecidableEq, Repr, Inhabited

namespace SymbolIndex

/-- The index without files. -/
def empty : SymbolIndex := ⟨∅, ∅, ∅⟩

instance : EmptyCollection SymbolIndex := ⟨empty⟩

/-- The symbols of a content with the given tree. -/
def symbolsOf (grammar : Grammar) (file content : String) (tree : Tree.Node) : List SymbolEntry :=
  Extraction.symbols file (grammar.definitions.captures (Tree.Place.root tree)) (some content)

/-- Holds if a file was last indexed with exactly this content. -/
def isCurrent (index : SymbolIndex) (file content : String) : Bool :=
  match index.files.get? file with
  | some indexed => indexed.content = content
  | none => false

/-- The index after a file was indexed anew. -/
def replace (index : SymbolIndex) (grammar : Grammar) (file content : String) : SymbolIndex :=
  let tree := grammar.parse content
  let symbols := symbolsOf grammar file content tree
  { files := index.files.insert file ⟨content, tree, symbols⟩
    registry := (index.registry.retract file).insert file symbols
    inheritance := index.inheritance.insert file (Extraction.inheritance tree) }

/-- The index after a file got a content, and whether that changed the index. -/
def indexContent (index : SymbolIndex) (grammar : Grammar) (file content : String) :
    SymbolIndex × Bool :=
  if index.isCurrent file content then (index, false)
  else (index.replace grammar file content, true)

/-- The index after a file was indexed, and whether that changed the index.  Without a given content
the file is read; a file that cannot be read changes nothing. -/
def indexFile (index : SymbolIndex) (grammar : Grammar) (store : FileStore) (file : String)
    (content : Option String) : SymbolIndex × Bool :=
  match content with
  | some content => index.indexContent grammar file content
  | none =>
    match store.readText? (Path.ofText file) with
    | some content => index.indexContent grammar file content
    | none => (index, false)

/-- The index without a file. -/
def removeFile (index : SymbolIndex) (file : String) : SymbolIndex :=
  { files := index.files.erase file
    registry := index.registry.retract file
    inheritance := index.inheritance.retract file }

/-- The indexed files, in the order in which they were first indexed. -/
def indexedFiles (index : SymbolIndex) : List String :=
  index.files.keys

/-- The symbols of a file. -/
def fileSymbols (index : SymbolIndex) (file : String) : List SymbolEntry :=
  match index.files.get? file with
  | some indexed => indexed.symbols
  | none => []

/-- The symbols that a query asks for. -/
def lookup (index : SymbolIndex) (query : SymbolQuery) : List SymbolEntry :=
  match query.container with
  | none => index.registry.symbols query.filter
  | some container =>
    if query.inherited then
      Inheritance.inherited index.registry index.inheritance container query.filter
    else index.registry.members container query.filter

/-- The tree of a content, which is not computed again if the file was indexed with it. -/
def treeFor (index : SymbolIndex) (grammar : Grammar) (file content : String) : Tree.Node :=
  match index.files.get? file with
  | some indexed => if indexed.content = content then indexed.tree else grammar.parse content
  | none => grammar.parse content

end SymbolIndex

end ModelAssist
