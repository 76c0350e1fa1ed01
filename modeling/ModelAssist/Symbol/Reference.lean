import ModelAssist.Grammar.Basic
import ModelAssist.Symbol.Extraction

/-!
# References

The identifier at a position, and the kinds of symbols that it may name.  Several patterns may cover
one identifier; the one that spans the fewest bytes decides, and of several such the one with the
fewest kinds.
-/

namespace ModelAssist

open ModelAssist.Tree

/-- The identifier at a position. -/
structure Reference where
  word : String
  /-- The kinds that it may name, unless no pattern covers it. -/
  kinds : Option (List SymbolKind)
  enclosingClass : Option String
  /-- The outermost state machine around it. -/
  enclosingStateMachine : Option String
deriving DecidableEq, Repr, Inhabited

namespace Reference

/-- What the names of reference captures start with. -/
def tag : String := "reference."

/-- A reference capture: its kinds and the count of bytes that it spans. -/
structure Candidate where
  kinds : List SymbolKind
  /-- The count of bytes. -/
  span : Int
deriving DecidableEq, Repr, Inhabited

/-- Holds if the first candidate spans less, or as much and with fewer kinds. -/
def Candidate.isTighter (left right : Candidate) : Bool :=
  left.span < right.span || (left.span == right.span && left.kinds.length < right.kinds.length)

/-- The candidates that cover a place, in the order of the captures. -/
def candidates (captures : List Capture) (place : Place) : List Candidate :=
  captures.filterMap fun capture => do
    let rest ← Extraction.afterTag? tag capture.name
    let info := capture.place.info
    if place.info.startByte < info.startByte || info.endByte < place.info.endByte then none
    else
      let kinds ← SymbolKind.listOfTag? rest
      some ⟨kinds, (info.endByte : Int) - info.startByte⟩

/-- The tightest candidate, and the first of several such. -/
def tightest : List Candidate → Option Candidate
  | [] => none
  | candidate :: rest =>
    some <| rest.foldl (fun best other => if other.isTighter best then other else best) candidate

/-- The kinds that some captures give to the node at a place, unless none of them does. -/
def kindsAmong? (captures : List Capture) (place : Place) : Option (List SymbolKind) :=
  (tightest (candidates captures place)).map (·.kinds)

/-- The kinds of symbols that the node at a place may name, unless no pattern covers it. -/
def kindsAt? (grammar : Grammar) (root : Node) (place : Place) : Option (List SymbolKind) :=
  kindsAmong? (grammar.references.captures (Place.root root)) place

/-- The innermost place at a position of a document. -/
def placeAt (root : Node) (content : String) (line column : Nat) : Place :=
  root.atPoint ⟨line, Text.byteColumn (Text.lineAt content.toList line) column⟩

/-- The place of the word at a position, or else of the word that ends there. -/
def wordPlace? (root : Node) (content : String) (line column : Nat) : Option Place :=
  let place := placeAt root content line column
  if place.isWord then some place
  else if column = 0 then none
  else
    let place := placeAt root content line (column - 1)
    if place.isWord then some place else none

/-- The reference at a position of a document. -/
def atPosition? (grammar : Grammar) (root : Node) (content : String) (line column : Nat) :
    Option Reference :=
  (wordPlace? root content line column).map fun place => {
    word := place.node.text
    kinds := kindsAt? grammar root place
    enclosingClass := place.enclosingClass?
    enclosingStateMachine := place.rootStateMachine? }

/-- The path of the `use` statement that starts at or above a place. -/
def usePathFrom? : List Place → Option String
  | [] => none
  | place :: rest =>
    if place.kind = "use_path" then some place.node.text
    else if place.kind = "use_statement" then (place.node.childByField? "path").map Node.text
    else usePathFrom? rest

/-- The path of the `use` statement at a position. -/
def usePathAt? (root : Node) (content : String) (line column : Nat) : Option String :=
  usePathFrom? (placeAt root content line column).selfAndAbove

/-- Holds if the character before a position lies in a comment. -/
def isCommentAt (root : Node) (content : String) (line column : Nat) : Bool :=
  (placeAt root content line (column - 1)).isInComment

end Reference

end ModelAssist
