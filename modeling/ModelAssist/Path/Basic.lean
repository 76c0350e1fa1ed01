import ModelAssist.Text.Position

/-!
# Paths

Lexical paths: where they start and which components they run through.  Normalizing a path makes it
absolute and resolves its dots by their names alone; symbolic links play no part in it.
-/

namespace ModelAssist

/-- Where a path starts. -/
inductive Anchor where
  | working
  | root
  /-- At the root, written with two slashes. -/
  | doubleRoot
deriving DecidableEq, Repr, Inhabited

/-- A path: its anchor and its components. -/
structure Path where
  /-- Where the path starts. -/
  anchor : Anchor
  /-- The components from the anchor on. -/
  parts : List String
deriving DecidableEq, Repr, Inhabited

/-- The suffix of model files, and of the `use` paths that name files. -/
def modelSuffix : String := ".ump"

namespace Path

/-- The pieces of a text between its slashes. -/
def pieces (text : String) : List String :=
  go [] text.toList
where
  /-- The pieces of the rest of a text, after the characters of the current one, last one first. -/
  go (current : List Char) : List Char → List String
    | [] => [String.ofList current.reverse]
    | '/' :: rest => String.ofList current.reverse :: go [] rest
    | char :: rest => go (char :: current) rest

/-- The anchor that a text starts from: exactly two leading slashes differ from any other count. -/
def anchorOf (text : String) : Anchor :=
  match text.toList with
  | '/' :: '/' :: '/' :: _ => .root
  | '/' :: '/' :: _ => .doubleRoot
  | '/' :: _ => .root
  | _ => .working

/-- The path that a text writes; empty components and single dots say nothing. -/
def ofText (text : String) : Path :=
  ⟨anchorOf text, (pieces text).filter fun piece => piece ≠ "" && piece ≠ "."⟩

/-- The text of a path. -/
def text (path : Path) : String :=
  let body := String.intercalate "/" path.parts
  match path.anchor with
  | .working => if path.parts.isEmpty then "." else body
  | .root => "/" ++ body
  | .doubleRoot => "//" ++ body

/-- Holds of the paths that start at the root. -/
def isAbsolute (path : Path) : Bool :=
  path.anchor ≠ .working

/-- The path that a second path leads to from a first one. -/
def join (base path : Path) : Path :=
  if path.isAbsolute then path else ⟨base.anchor, base.parts ++ path.parts⟩

/-- The path of an entry of a directory. -/
def child (directory : Path) (name : String) : Path :=
  ⟨directory.anchor, directory.parts ++ [name]⟩

/-- The directory of a path; an anchor alone is its own directory. -/
def parent (path : Path) : Path :=
  ⟨path.anchor, path.parts.dropLast⟩

/-- The last component of a path, empty for an anchor alone. -/
def name (path : Path) : String :=
  path.parts.getLast?.getD ""

/-- The part of a name from its last dot on, if something precedes and something follows it. -/
def suffixOf (name : String) : String :=
  let tail := name.toList.reverse.takeWhile (· ≠ '.')
  let head := name.toList.reverse.dropWhile (· ≠ '.')
  if tail.isEmpty || head.length ≤ 1 then "" else String.ofList ('.' :: tail.reverse)

/-- The suffix of a path. -/
def suffix (path : Path) : String :=
  suffixOf path.name

/-- Holds of the components that a text can write between its slashes. -/
def isPlainPart (part : String) : Prop :=
  part ≠ "" ∧ part ≠ "." ∧ '/' ∉ part.toList

/-- Holds of the paths of which a text can write every component. -/
def IsPlain (path : Path) : Prop :=
  ∀ part ∈ path.parts, isPlainPart part

end Path

/-- What values are written and read in. -/
inductive Notation where
  | json
  | yaml
  /-- As values are shown in messages. -/
  | display
deriving DecidableEq, Repr

/-- What a program finds where it runs. -/
class Host where
  /-- The directory that relative paths start from. -/
  workingDirectory : Path
  /-- The home directory of whoever runs the program. -/
  home : Path
  /-- The home directory of another user, if the user is known. -/
  homeOf? : String → Option Path
  /-- Holds of the texts whose parts lie too deep inside each other to be read or written. -/
  tooDeep : Notation → List Char → Bool
  absolute : workingDirectory.anchor ≠ .working
  plain : workingDirectory.IsPlain

namespace Path

variable [Host]

/-- The components after further ones, a double dot taking back the one before it. -/
def resolveDots (resolved : List String) : List String → List String
  | [] => resolved
  | part :: rest =>
    if part = ".." then resolveDots resolved.dropLast rest
    else resolveDots (resolved ++ [part]) rest

/-- The absolute path without dots that a path stands for by its names alone. -/
def normalize (path : Path) : Path :=
  let absolute := Host.workingDirectory.join path
  ⟨absolute.anchor, resolveDots [] absolute.parts⟩

/-- The normalized path of a text. -/
def normalized (text : String) : Path :=
  (ofText text).normalize

/-- The home directory that a name behind a tilde stands for; no name is that of whoever runs the
program. -/
def homeOf? (user : String) : Option Path :=
  if user = "" then some Host.home else Host.homeOf? user

/-- The path after its leading tilde, if it has one, was replaced by a home directory; `none` if
that directory is not known. -/
def expandHome? (path : Path) : Option Path :=
  match path.anchor, path.parts with
  | .working, first :: rest =>
    match first.toList with
    | '~' :: user => (homeOf? (String.ofList user)).map (·.join ⟨.working, rest⟩)
    | _ => some path
  | _, _ => some path

/-- Holds if the first path is the second or one of the directories above it. -/
def isAncestorOf (ancestor path : Path) : Bool :=
  ancestor.anchor = path.anchor && ancestor.parts.isPrefixOf path.parts

/-- The components that lead from a directory to a path below it. -/
def partsBelow? (path directory : Path) : Option (List String) :=
  if directory.isAncestorOf path then some (path.parts.drop directory.parts.length) else none

/-- What paths are sorted by: the pieces between the slashes of their texts. -/
def sortKey (path : Path) : List String :=
  match path.anchor with
  | .working => if path.parts.isEmpty then ["."] else path.parts
  | .root => if path.parts.isEmpty then ["", ""] else "" :: path.parts
  | .doubleRoot => if path.parts.isEmpty then ["", "", ""] else "" :: "" :: path.parts

/-- Holds if the first path is sorted at or before the second. -/
def sortsBefore (left right : Path) : Bool :=
  !decide (right.sortKey < left.sortKey)

/-- The paths in ascending order. -/
def sort (paths : List Path) : List Path :=
  paths.mergeSort sortsBefore

/-- The longest common start of two lists. -/
def commonStart : List String → List String → List String
  | left :: lefts, right :: rights =>
    if left = right then left :: commonStart lefts rights else []
  | _, _ => []

/-- Why several paths have no common directory. -/
inductive CommonFault where
  | noPaths
  /-- Some are absolute and some are not. -/
  | mixed
deriving DecidableEq, Repr

/-- What is said about paths without a common directory. -/
def CommonFault.message : CommonFault → String
  | .noPaths => "commonpath() arg is an empty sequence"
  | .mixed => "Can't mix absolute and relative paths"

/-- The deepest directory above all of the given paths. -/
def commonAncestor (paths : List Path) : Except CommonFault Path :=
  match paths.map parent with
  | [] => .error .noPaths
  | first :: rest =>
    if rest.any (·.isAbsolute ≠ first.isAbsolute) then .error .mixed
    else
      .ok ⟨if first.isAbsolute then .root else .working,
        rest.foldl (fun common path => commonStart common path.parts) first.parts⟩

end Path

namespace Trial

/-- A host to try things on.  Only whoever runs the program has a known home, and nothing is too
deep. -/
scoped instance host : Host where
  workingDirectory := ⟨.root, ["w"]⟩
  home := ⟨.root, ["home", "u"]⟩
  homeOf? := fun _ => none
  tooDeep := fun _ _ => false
  absolute := by decide
  plain := by unfold Path.IsPlain Path.isPlainPart; decide

end Trial

end ModelAssist
