import ModelAssist.Data.OrderedMap
import ModelAssist.Path.Uri

/-!
# Open documents

The documents that are open in the editor, by URI and by path.  Several URIs may stand for one path;
the document that was opened last then owns it.
-/

namespace ModelAssist

/-- A document that is open in the editor. -/
structure Document where
  /-- The name by which the editor knows it. -/
  uri : String
  /-- Its path, unless it is not a file. -/
  path : Option Path
  text : String
  version : Int
deriving DecidableEq, Repr, Inhabited

/-- The open documents. -/
structure DocumentStore where
  /-- The documents by URI, in the order in which they were opened. -/
  byUri : OrderedMap String Document
  /-- The URI of the document that owns a path. -/
  owners : OrderedMap Path String
deriving Inhabited

namespace DocumentStore

variable [Host]

/-- The store without documents. -/
def empty : DocumentStore := ⟨∅, ∅⟩

instance : EmptyCollection DocumentStore := ⟨empty⟩

/-- The document with a URI. -/
def get? (store : DocumentStore) (uri : String) : Option Document :=
  store.byUri.get? uri

/-- The version of the document with a URI. -/
def version? (store : DocumentStore) (uri : String) : Option Int :=
  (store.get? uri).map (·.version)

/-- The store after a document was opened. -/
def openDocument (store : DocumentStore) (uri text : String) (version : Int) : DocumentStore :=
  let path := Uri.path? uri
  { byUri := store.byUri.insert uri ⟨uri, path, text, version⟩
    owners :=
      match path with
      | some path => store.owners.insert path uri
      | none => store.owners }

/-- The store after the text of a document changed; one that is not open is opened. -/
def update (store : DocumentStore) (uri text : String) (version : Int) : DocumentStore :=
  match store.get? uri with
  | none => store.openDocument uri text version
  | some document =>
    { store with byUri := store.byUri.insert uri { document with text, version } }

/-- The store after a document was closed; its path then has no owner. -/
def close (store : DocumentStore) (uri : String) : DocumentStore :=
  match store.get? uri with
  | none => store
  | some document =>
    { byUri := store.byUri.erase uri
      owners :=
        match document.path with
        | some path => store.owners.erase path
        | none => store.owners }

/-- The document that owns a normalized path. -/
def byPath? (store : DocumentStore) (path : Path) : Option Document :=
  (store.owners.get? path.normalize).bind store.get?

/-- The unsaved text of a path, if a document owns it. -/
def textFor? (store : DocumentStore) (path : Path) : Option String :=
  (store.byPath? path).map (·.text)

/-- The open documents, in the order in which they were opened. -/
def documents (store : DocumentStore) : List Document :=
  store.byUri.values

end DocumentStore

end ModelAssist
