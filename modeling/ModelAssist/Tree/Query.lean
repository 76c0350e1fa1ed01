import ModelAssist.Tree.Node

/-!
# Tree queries

Patterns that pick nodes out of a tree and give them capture names, the text form of patterns, and
the captures of a query.  The captures are first collected per name, names in the order in which
they first occur, and then sorted by where they start, longer ones first.
-/

namespace ModelAssist.Tree

/-- A pattern: a node of some type, and possibly one child that matches a further pattern. -/
inductive Pattern where
  /-- Matches the nodes of a type. -/
  | leaf (kind : String) (captures : List String)
  /-- Matches the nodes of a type once for every child that matches and plays the given role. -/
  | withChild (kind : String) (field : Option String) (child : Pattern) (captures : List String)
deriving DecidableEq, Repr, Inhabited

/-- A captured place and the name under which it was captured. -/
structure Capture where
  name : String
  place : Place
deriving Inhabited

/-- A query is a list of patterns. -/
abbrev Query := List Pattern

namespace Pattern

/-- The node type of a pattern. -/
def kind : Pattern → String
  | .leaf kind _ => kind
  | .withChild kind _ _ _ => kind

/-- The captures of every match of a pattern at a place. -/
def matchesAt : Pattern → Place → List (List Capture)
  | .leaf kind captures, place =>
    if place.kind = kind then [captures.map (⟨·, place⟩)] else []
  | .withChild kind field child captures, place =>
    if place.kind = kind then
      (place.children.filter fun below => field.isNone || below.info.field = field).flatMap
        fun below => (child.matchesAt below).map (captures.map (⟨·, place⟩) ++ ·)
    else []

end Pattern

namespace Capture

/-- Some captures after one more; it is left out if its name already has its place. -/
def add (captures : List Capture) (capture : Capture) : List Capture :=
  if captures.any fun other => other.name = capture.name && other.place.isSame capture.place then
    captures
  else captures ++ [capture]

/-- The capture names in the order in which they first occur. -/
def names (captures : List Capture) : List String :=
  captures.foldl
    (fun names capture => if names.contains capture.name then names else names ++ [capture.name])
    []

/-- The captures name by name. -/
def grouped (captures : List Capture) : List Capture :=
  (names captures).flatMap fun name => captures.filter (·.name = name)

/-- Holds if the first capture starts earlier, or at the same byte and does not end earlier. -/
def sortsBefore (left right : Capture) : Bool :=
  left.place.info.startByte < right.place.info.startByte ||
    (left.place.info.startByte == right.place.info.startByte &&
      right.place.info.endByte ≤ left.place.info.endByte)

end Capture

namespace Query

/-- The captures at a place and below it, in the order in which they are found. -/
def found (query : Query) (place : Place) : List Capture :=
  (place.subtree.flatMap fun below =>
    query.flatMap fun pattern => (pattern.matchesAt below).flatten).foldl Capture.add []

/-- The captures at a place and below it. -/
def captures (query : Query) (place : Place) : List Capture :=
  (Capture.grouped (query.found place)).mergeSort Capture.sortsBefore

end Query

/-- A token of the text form of queries. -/
inductive QueryToken where
  | opening
  | closing
  | name (name : String)
  /-- A colon, which follows the name of a role. -/
  | colon
  /-- A capture name, which an at sign precedes. -/
  | capture (name : String)
deriving DecidableEq, Repr

namespace Query

/-- Holds of the characters of names. -/
def isNameChar (char : Char) : Bool :=
  char.isAlphanum || char = '_' || char = '.' || char = '-'

/-- The tokens of a text; a semicolon starts a comment. -/
def tokens (text : List Char) : List QueryToken :=
  match text with
  | [] => []
  | '(' :: rest => .opening :: tokens rest
  | ')' :: rest => .closing :: tokens rest
  | ':' :: rest => .colon :: tokens rest
  | ';' :: rest => tokens (rest.dropWhile (· ≠ '\n'))
  | '@' :: rest => .capture (String.ofList (rest.takeWhile isNameChar)) ::
      tokens (rest.dropWhile isNameChar)
  | char :: rest =>
    if isNameChar char then
      .name (String.ofList (char :: rest.takeWhile isNameChar)) ::
        tokens (rest.dropWhile isNameChar)
    else tokens rest
  termination_by text.length
  decreasing_by
    all_goals simp only [List.length_cons, Nat.lt_add_one_iff, Nat.le_refl]
    all_goals exact (List.dropWhile_sublist _).length_le

/-- The capture names at the front of a list of tokens, and the rest. -/
def readCaptures : List QueryToken → List String × List QueryToken
  | .capture name :: rest =>
    let (names, rest) := readCaptures rest
    (name :: names, rest)
  | rest => ([], rest)

/-- The pattern after an opening parenthesis; the fuel bounds how deep patterns are nested. -/
def readPattern : Nat → List QueryToken → Option (Pattern × List QueryToken)
  | 0, _ => none
  | fuel + 1, .name kind :: rest =>
    let nested (field : Option String) (rest : List QueryToken) := do
      let (child, rest) ← readPattern fuel rest
      match rest with
      | .closing :: rest =>
        let (captures, rest) := readCaptures rest
        some (Pattern.withChild kind field child captures, rest)
      | _ => none
    match rest with
    | .closing :: rest =>
      let (captures, rest) := readCaptures rest
      some (.leaf kind captures, rest)
    | .opening :: rest => nested none rest
    | .name field :: .colon :: .opening :: rest => nested (some field) rest
    | _ => none
  | _, _ => none

/-- The patterns of a list of tokens; the fuel bounds their count. -/
def readPatterns : Nat → List QueryToken → List Pattern
  | fuel + 1, .opening :: rest =>
    match readPattern rest.length rest with
    | some (pattern, rest) => pattern :: readPatterns fuel rest
    | none => []
  | _, _ => []

/-- The query that a text writes. -/
def ofText (text : String) : Query :=
  let tokens := tokens text.toList
  readPatterns (tokens.length + 1) tokens

end Query

end ModelAssist.Tree
