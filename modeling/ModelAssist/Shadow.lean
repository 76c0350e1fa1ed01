import ModelAssist.FileStore

/-!
# Shadow directories

A validator reads files from disk, but an editor holds unsaved text.  A shadow is a fresh directory
that holds a document and all that it reaches, at the same places relative to each other: unsaved
texts are written, and other files are linked, or copied where links are refused.  Leaving the
shadow removes the directory, and so does every failure to make it.
-/

namespace ModelAssist

/-- Why a shadow was not made. -/
inductive ShadowFault where
  /-- An operation on files failed. -/
  | file (fault : FileFault)
  | cancelled (reason : String)
  /-- A path does not lie below the common directory. -/
  | outside (path directory : Path)
  /-- A path below the common directory leads out of it by its dots. -/
  | escaped (path directory : Path)
  /-- The unsaved texts could not be asked for. -/
  | unsaved (message : String)
deriving DecidableEq, Repr

/-- What a shadow is made of. -/
structure ShadowRequest where
  document : Path
  text : String
  /-- The files that it reaches. -/
  reachable : List Path
  /-- The unsaved text of a file, if it has one. -/
  unsaved : Path → Except String (Option String)
  /-- The reason why the work is cancelled, if it is, after the given count of files. -/
  cancelled : Nat → Option String

/-- A directory that holds a document and what it reaches. -/
structure Shadow where
  root : Path
  /-- Where the document lies in it. -/
  target : Path
deriving DecidableEq, Repr, Inhabited

namespace Shadow

variable [Host]

/-- A text that ends in a blank line. -/
def withTrailingBlankLine (text : String) : String :=
  if "\n\n".toList.isSuffixOf text.toList then text
  else if "\n".toList.isSuffixOf text.toList then text ++ "\n"
  else text ++ "\n\n"

/-- What the names of shadow directories start with. -/
def namePart : String := "umple-shadow-"

/-- The directory of the shadow with the given number. -/
def directory (number : Nat) : Path :=
  ⟨.root, ["tmp", namePart ++ Number.intText number]⟩

/-- Where a path lies in a shadow of what is below a common directory. -/
def place (root common path : Path) : Except ShadowFault Path :=
  match path.partsBelow? common with
  | some parts =>
    if ".." ∈ parts then .error (.escaped path common)
    else .ok ⟨root.anchor, root.parts ++ parts⟩
  | none => .error (.outside path common)

/-- The store after a text was written to a place, with the directories above it. -/
def writeText (store : FileStore) (place : Path) (text : String) : Except FileFault FileStore := do
  let store ← store.makeDirectories place.parent
  store.write place (Text.utf8 text.toList)

/-- The store after a file that exists was linked to a place, or copied to it. -/
def linkOrCopy (store : FileStore) (source place : Path) : Except FileFault FileStore := do
  let store ← store.makeDirectories place.parent
  match store.makeLink? source place with
  | some store => return store
  | none => store.copy source place

/-- The store after a file got its counterpart; a file that does not exist gets none. -/
def layOut (store : FileStore) (source place : Path) (unsaved : Option String) :
    Except FileFault FileStore :=
  if !store.has source then .ok store
  else
    match unsaved with
    | some text => writeText store place text
    | none => linkOrCopy store source place

/-- A store, the files that were handled so far, and what came of it. -/
structure Progress (Result : Type) where
  store : FileStore
  /-- The files whose unsaved texts were asked for, in order. -/
  asked : List Path
  result : Except ShadowFault Result

/-- The work after some files got their counterparts, one by one. -/
def layOutAll (request : ShadowRequest) (root common : Path) (store : FileStore)
    (asked : List Path) : List Path → Progress Unit
  | [] => ⟨store, asked, .ok ()⟩
  | path :: rest =>
    match request.cancelled asked.length with
    | some reason => ⟨store, asked, .error (.cancelled reason)⟩
    | none =>
      let asked := asked ++ [path]
      match request.unsaved path with
      | .error message => ⟨store, asked, .error (.unsaved message)⟩
      | .ok unsaved =>
        match place root common path with
        | .error fault => ⟨store, asked, .error fault⟩
        | .ok place =>
          match layOut store path place unsaved with
          | .error fault => ⟨store, asked, .error (.file fault)⟩
          | .ok store => layOutAll request root common store asked rest

/-- The paths of a request: the document and what it reaches, each once and in ascending order. -/
def paths (request : ShadowRequest) : List Path :=
  Path.sort <| (request.document.normalize :: request.reachable.map Path.normalize).foldl
    (fun kept path => if kept.contains path then kept else kept ++ [path]) []

/-- The directory whose content a shadow repeats, and the paths that lie below it; paths without a
common directory leave the directory of the document. -/
def extent (request : ShadowRequest) : Path × List Path :=
  let paths := paths request
  match Path.commonAncestor paths with
  | .ok common => (common, paths)
  | .error _ =>
    let common := request.document.normalize.parent
    (common, paths.filter common.isAncestorOf)

/-- The work after the document itself was written, when all other files were handled. -/
def writeDocument (request : ShadowRequest) (root common : Path) (work : Progress Unit) :
    Progress Shadow :=
  match work.result with
  | .error fault => ⟨work.store, work.asked, .error fault⟩
  | .ok _ =>
    match request.cancelled work.asked.length with
    | some reason => ⟨work.store, work.asked, .error (.cancelled reason)⟩
    | none =>
      match place root common request.document.normalize with
      | .error fault => ⟨work.store, work.asked, .error fault⟩
      | .ok target =>
        match writeText work.store target (withTrailingBlankLine request.text) with
        | .error fault => ⟨work.store, work.asked, .error (.file fault)⟩
        | .ok store => ⟨store, work.asked, .ok ⟨root, target⟩⟩

/-- The work after an empty directory was filled. -/
def fill (request : ShadowRequest) (root : Path) (store : FileStore) : Progress Shadow :=
  let (common, paths) := extent request
  writeDocument request root common <|
    layOutAll request root common store [] (paths.filter (· ≠ request.document.normalize))

/-- The store without a shadow directory. -/
def removeDirectory (store : FileStore) (root : Path) : FileStore :=
  store.removeTree root

/-- The work after a shadow was made in the directory with the given number; a failure leaves no
directory behind. -/
def enter (request : ShadowRequest) (number : Nat) (store : FileStore) : Progress Shadow :=
  let root := directory number
  let work := fill request root (store.put root .directory)
  match work.result with
  | .ok _ => work
  | .error _ => { work with store := removeDirectory work.store root }

/-- The store after a shadow was left. -/
def leave (shadow : Shadow) (store : FileStore) : FileStore :=
  removeDirectory store shadow.root

end Shadow

/-- What the owner of a shadow has of it: its directory, and where the document lies in it. -/
structure ShadowHold where
  root : Option Path
  target : Option Path
deriving DecidableEq, Repr, Inhabited

namespace ShadowHold

/-- What is left of a shadow that was cleaned up. -/
def nothing : ShadowHold := ⟨none, none⟩

/-- What the owner of a shadow has in it. -/
def on (shadow : Shadow) : ShadowHold := ⟨some shadow.root, some shadow.target⟩

/-- What the owner has after the work on a shadow; failed work has cleaned up. -/
def ofResult : Except ShadowFault Shadow → ShadowHold
  | .ok shadow => on shadow
  | .error _ => nothing

/-- The store after a shadow was cleaned up, and what its owner has then.  Where nothing is held,
nothing is removed. -/
def cleanUp (hold : ShadowHold) (store : FileStore) : ShadowHold × FileStore :=
  (nothing, match hold.root with
    | some root => Shadow.removeDirectory store root
    | none => store)

end ShadowHold

/-- What is said about a shadow that was not made. -/
def ShadowFault.message : ShadowFault → String
  | .file fault => fault.message
  | .cancelled reason => reason
  | .outside path directory =>
    Text.quoted path.text ++ " is not in the subpath of " ++ Text.quoted directory.text ++
      " OR one path is relative and the other is absolute."
  | .escaped path directory => path.text ++ " escapes " ++ directory.text
  | .unsaved message => message

end ModelAssist
