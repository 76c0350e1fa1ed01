import ModelAssist.Data.OrderedMap
import ModelAssist.Number.Notation
import ModelAssist.Path.Basic
import ModelAssist.Text.Damage

/-!
# File stores

A tree of files as a value.  A path leads to an entry by its exact components; symbolic links on
the way are followed.  Operations that can fail say why, as an operating system would.
-/

namespace ModelAssist

/-- What a path of a store leads to. -/
inductive FileEntry where
  | file (content : List UInt8)
  /-- A regular file that may not be read. -/
  | sealed
  | directory
  | link (target : Path)
deriving DecidableEq, Repr, Inhabited

/-- What becomes of requests to make symbolic links. -/
inductive LinkPolicy where
  /-- They are made. -/
  | allowed
  | refused
deriving DecidableEq, Repr, Inhabited

/-- Why an operation on a store failed. -/
inductive FileFault where
  | missing (path : Path)
  /-- It may not be read. -/
  | sealed (path : Path)
  /-- Something is there already. -/
  | occupied (path : Path)
  | isDirectory (path : Path)
  | notDirectory (path : Path)
  /-- A file is not copied onto itself. -/
  | same (source target : Path)
deriving DecidableEq, Repr

namespace FileFault

/-- What the system says about a path, with the number of the fault. -/
def numbered (number : Nat) (text : String) (path : Path) : String :=
  "[Errno " ++ Number.intText number ++ "] " ++ text ++ ": " ++ Text.quoted path.text

/-- What is said about a fault. -/
def message : FileFault → String
  | .missing path => numbered 2 "No such file or directory" path
  | .sealed path => numbered 13 "Permission denied" path
  | .occupied path => numbered 17 "File exists" path
  | .notDirectory path => numbered 20 "Not a directory" path
  | .isDirectory path => numbered 21 "Is a directory" path
  | .same source target =>
    "PosixPath(" ++ Text.quoted source.text ++ ") and PosixPath(" ++ Text.quoted target.text ++
      ") are the same file"

end FileFault

/-- Why a file has no text. -/
inductive TextFault where
  /-- It cannot be read. -/
  | file (fault : FileFault)
  | damaged (damage : Text.Damage)
deriving DecidableEq, Repr

/-- What is said about a file without a text. -/
def TextFault.message : TextFault → String
  | .file fault => fault.message
  | .damaged damage => damage.message

/-- A tree of files. -/
structure FileStore where
  entries : OrderedMap Path FileEntry
  /-- What becomes of requests to make symbolic links. -/
  links : LinkPolicy
deriving Inhabited

namespace FileStore

/-- The longest chain of symbolic links that is followed. -/
def linkLimit : Nat := 40

/-- The entry under exactly this path, not followed further. -/
def entry? (store : FileStore) (path : Path) : Option FileEntry :=
  store.entries.get? path

/-- The place that the parts of a path lead to from a walked one; what is behind a link depends on
its target and on the parts that are left. -/
def walk (store : FileStore) (behindLink : Path → List String → Path) :
    Path → List String → Path
  | reached, [] => reached
  | reached, part :: rest =>
    match store.entry? (reached.child part) with
    | some (.link target) => behindLink target rest
    | _ => store.walk behindLink (reached.child part) rest

/-- The place that a path leads to when the links on the way are followed: `reached` is the part
that was walked, and the fuel bounds the count of links. -/
def follow (store : FileStore) : Nat → Path → List String → Path
  | 0, reached, rest => ⟨reached.anchor, reached.parts ++ rest⟩
  | fuel + 1, reached, rest =>
    store.walk (fun target behind => store.follow fuel ⟨target.anchor, []⟩ (target.parts ++ behind))
      reached rest

/-- The place that a path leads to, all links followed. -/
def resolve (store : FileStore) (path : Path) : Path :=
  store.follow linkLimit ⟨path.anchor, []⟩ path.parts

/-- The place that a path leads to, all links but the last followed. -/
def resolveParent (store : FileStore) (path : Path) : Path :=
  match path.parts.getLast? with
  | some name => (store.resolve path.parent).child name
  | none => path

/-- The entry that a path leads to. -/
def lookup? (store : FileStore) (path : Path) : Option FileEntry :=
  store.entry? (store.resolve path)

/-- Holds if a path leads to something; a ring of links leads nowhere. -/
def has (store : FileStore) (path : Path) : Bool :=
  match store.lookup? path with
  | none => false
  | some (.link _) => false
  | some _ => true

/-- Holds if a path leads to a regular file. -/
def isFile (store : FileStore) (path : Path) : Bool :=
  match store.lookup? path with
  | some (.file _) => true
  | some .sealed => true
  | _ => false

/-- Holds if a path leads to a directory. -/
def isDirectory (store : FileStore) (path : Path) : Bool :=
  store.lookup? path = some .directory

/-- The bytes of the file that a path leads to. -/
def read (store : FileStore) (path : Path) : Except FileFault (List UInt8) :=
  match store.lookup? path with
  | some (.file content) => .ok content
  | some .sealed => .error (.sealed path)
  | some .directory => .error (.isDirectory path)
  | _ => .error (.missing path)

/-- A text in which every line ends with a line feed. -/
def unifyLineEnds : List Char → List Char
  | [] => []
  | '\r' :: '\n' :: rest => '\n' :: unifyLineEnds rest
  | '\r' :: rest => '\n' :: unifyLineEnds rest
  | char :: rest => char :: unifyLineEnds rest

/-- The text of the file that a path leads to. -/
def text (store : FileStore) (path : Path) : Except TextFault (List Char) :=
  match store.read path with
  | .error fault => .error (.file fault)
  | .ok content =>
    match Text.damage? content with
    | some damage => .error (.damaged damage)
    | none => .ok (unifyLineEnds (Text.decodeMarking content))

/-- The text of a file, if its bytes are well-formed. -/
def textOf? (content : List UInt8) : Option String :=
  (Text.decode? content).map fun text => String.ofList (unifyLineEnds text)

/-- The text of the file that a path leads to, if it can be read and is well-formed. -/
def readText? (store : FileStore) (path : Path) : Option String :=
  match store.lookup? path with
  | some (.file content) => textOf? content
  | _ => none

/-- The names in a directory, in the order in which they were made. -/
def list (store : FileStore) (directory : Path) : Except FileFault (List String) :=
  match store.lookup? directory with
  | some .directory =>
    let place := store.resolve directory
    .ok <| store.entries.keys.filterMap fun path =>
      if path.parts ≠ [] ∧ path.parent = place then some path.name else none
  | some _ => .error (.notDirectory directory)
  | none => .error (.missing directory)

/-- The store with an entry under exactly this path, and with directories above it where nothing
was. -/
def put (store : FileStore) (path : Path) (entry : FileEntry) : FileStore :=
  let above := (List.range path.parts.length).map fun count =>
    (⟨path.anchor, path.parts.take count⟩ : Path)
  let entries := above.foldl
    (fun entries directory =>
      if entries.contains directory then entries else entries.insert directory .directory)
    store.entries
  { store with entries := entries.insert path entry }

/-- The store without the entry under exactly this path. -/
def remove (store : FileStore) (path : Path) : FileStore :=
  { store with entries := store.entries.erase path }

/-- The store without a path and all that lies below it; links are removed, not followed. -/
def removeTree (store : FileStore) (path : Path) : FileStore :=
  let kept := store.entries.entries.filter fun (other, _) => !path.isAncestorOf other
  { store with entries := ⟨kept⟩ }

/-- The store after the directories from one that exists down to `target` were made where they were
missing. -/
def makeDirectoriesFrom (store : FileStore) (target directory : Path) :
    List String → Except FileFault FileStore
  | [] => .ok store
  | part :: rest =>
    let directory := directory.child part
    match store.lookup? directory with
    | some .directory => makeDirectoriesFrom store target directory rest
    | some _ => .error (if rest.isEmpty then .occupied target else .notDirectory target)
    | none =>
      makeDirectoriesFrom (store.put (store.resolve directory) .directory) target directory rest

/-- The store after all directories down to a path were made where they were missing. -/
def makeDirectories (store : FileStore) (directory : Path) : Except FileFault FileStore :=
  makeDirectoriesFrom store directory ⟨directory.anchor, []⟩ directory.parts

/-- The store after a file was written; a link to a file leads to that file. -/
def write (store : FileStore) (path : Path) (content : List UInt8) : Except FileFault FileStore :=
  let place := store.resolve path
  match store.entry? place with
  | some .directory => .error (.isDirectory path)
  | some .sealed => .error (.sealed path)
  | _ => if store.isDirectory place.parent then .ok (store.put place (.file content))
    else .error (.missing path)

/-- The store after a file was opened to write at its end; one that was missing is made. -/
def openAppending (store : FileStore) (path : Path) : Except FileFault FileStore :=
  let place := store.resolve path
  match store.entry? place with
  | some .directory => .error (.isDirectory path)
  | some .sealed => .error (.sealed path)
  | some (.file _) => .ok store
  | some (.link _) => .error (.missing path)
  | none => if store.isDirectory place.parent then .ok (store.put place (.file []))
    else .error (.missing path)

/-- The store after a symbolic link was made, if this is allowed and nothing is in its place. -/
def makeLink? (store : FileStore) (target path : Path) : Option FileStore :=
  let place := store.resolveParent path
  match store.links, store.entry? place with
  | .allowed, none => some (store.put place (.link target))
  | _, _ => none

/-- The store after the content of a file was copied to another one. -/
def copy (store : FileStore) (source target : Path) : Except FileFault FileStore := do
  if store.isFile source && decide (store.resolve source = store.resolve target) then
    throw (.same source target)
  let content ← store.read source
  store.write target content

/-- The text form of a store below a directory: what every file holds and where every link leads. -/
def below (store : FileStore) (directory : Path) : List (List String × FileEntry) :=
  store.entries.entries.filterMap fun (path, entry) =>
    match path.partsBelow? directory, entry with
    | some [], _ => none
    | _, .directory => none
    | some parts, entry => some (parts, entry)
    | none, _ => none

/-- A store that holds the directories that are always there. -/
def initial [Host] (links : LinkPolicy) : FileStore :=
  let empty : FileStore := ⟨⟨[(⟨.root, []⟩, .directory)]⟩, links⟩
  (empty.put Host.workingDirectory .directory).put ⟨.root, ["tmp"]⟩ .directory

end FileStore

end ModelAssist
