import ModelAssist.Grammar.Basic
import ModelAssist.Symbol.Extraction

/-!
# Completion scopes

Which symbols a position admits.  The innermost captured node around the position decides; a
position in none of them, or in one that admits keywords only, has no scope.
-/

namespace ModelAssist

open ModelAssist.Tree

/-- Which symbols a position admits. -/
inductive CompletionScope where
  | symbols (kinds : List SymbolKind)
  | suppress
  /-- The names of files. -/
  | usePath
  /-- The attributes that the enclosing class declares itself. -/
  | ownAttribute
deriving DecidableEq, Repr, Inhabited

namespace CompletionScope

/-- What the names of scope captures start with. -/
def tag : String := "scope."

/-- The scope that the rest of a capture name encodes. -/
def ofTag? (tag : String) : Option CompletionScope :=
  if tag = "suppress" then some .suppress
  else if tag = "use_path" then some .usePath
  else if tag = "own_attribute" then some .ownAttribute
  else if tag = "none" then none
  else (SymbolKind.listOfTag? tag).map .symbols

/-- The kinds of symbols that a scope admits. -/
def kinds : CompletionScope → List SymbolKind
  | .symbols kinds => kinds
  | _ => []

/-- Holds if a place contains a point, both its ends included. -/
def touches (point : Text.Point) (place : Place) : Bool :=
  place.info.startPoint.atMost point && point.atMost place.info.endPoint

/-- A scope capture: its encoding and the count of bytes that it spans. -/
structure Candidate where
  /-- The encoding of the scope. -/
  tag : String
  /-- The count of bytes. -/
  span : Int
deriving DecidableEq, Repr, Inhabited

/-- The candidates around a point, in the order of the captures. -/
def candidates (captures : List Capture) (point : Text.Point) : List Candidate :=
  captures.filterMap fun capture =>
    match Extraction.afterTag? tag capture.name with
    | none => none
    | some rest =>
      if touches point capture.place then
        some ⟨rest, (capture.place.info.endByte : Int) - capture.place.info.startByte⟩
      else none

/-- The candidate that spans the fewest bytes, and the first of several such. -/
def narrowest : List Candidate → Option Candidate
  | [] => none
  | candidate :: rest =>
    some <| rest.foldl (fun best other => if other.span < best.span then other else best) candidate

/-- The scope that some captures give to a point. -/
def among? (captures : List Capture) (point : Text.Point) : Option CompletionScope :=
  (narrowest (candidates captures point)).bind fun candidate => ofTag? candidate.tag

/-- The scope at a point of a tree. -/
def atPoint? (grammar : Grammar) (root : Node) (point : Text.Point) : Option CompletionScope :=
  among? (grammar.completions.captures (Place.root root)) point

end CompletionScope

end ModelAssist
