import ModelAssist.Symbol.Inheritance
import ModelAssist.Tree.Enclosing
import ModelAssist.Tree.Query

/-!
# Extraction

The symbols, the inheritance edges and the `use` statements of a syntax tree.  A damaged construct
is left out and costs nothing else.
-/

namespace ModelAssist

open ModelAssist.Tree

namespace Extraction

/-- What the names of definition captures start with. -/
def definitionTag : String := "definition."

/-- The rest of a text after the characters that it starts with. -/
def afterTag? (tag text : String) : Option String :=
  if tag.toList.isPrefixOf text.toList then some (String.ofList (text.toList.drop tag.length))
  else none

/-- The class or the state machine that a definition belongs to; other definitions are their own
containers. -/
def container? (kind : SymbolKind) (place : Place) : Option String :=
  if kind.isOfStateMachine then place.parent?.bind (·.rootStateMachine?)
  else if kind.isMember then place.parent?.bind (·.enclosingClass?)
  else if place.node.text = "" then none else some place.node.text

/-- The position of a point in a document; without the line its column stays in bytes. -/
def position (lines : List (List Char)) (point : Text.Point) : Position :=
  match lines[point.row]? with
  | some line => ⟨point.row, Text.charColumn line point.column⟩
  | none => ⟨point.row, point.column⟩

/-- The symbol that a definition capture stands for. -/
def symbol? (file : String) (lines : List (List Char)) (name : String) (place : Place) :
    Option SymbolEntry := do
  let tag ← afterTag? definitionTag name
  let kind ← SymbolKind.ofName? tag
  if place.info.isMissing || place.node.text = "" then none
  else
    some {
      name := place.node.text
      kind
      file
      start := position lines place.info.startPoint
      stop := position lines place.info.endPoint
      container := container? kind place }

/-- The symbols of some captures of a document.  Without its content columns stay in bytes. -/
def symbols (file : String) (captures : List Capture) (content : Option String) :
    List SymbolEntry :=
  let lines := match content with
    | some content => Text.lines content.toList
    | none => []
  captures.filterMap fun capture => symbol? file lines capture.name capture.place

/-- The nodes of a given type directly below a node. -/
def childrenOfKind (kind : String) (node : Node) : List Node :=
  node.children.filter (·.kind = kind)

/-- The names of the parents in an `isA` declaration. -/
def parentNames (declaration : Node) : List String :=
  ((((childrenOfKind "type_list" declaration).flatMap (childrenOfKind "type_name")).flatMap
    (childrenOfKind "qualified_name")).map Node.text).filter (· ≠ "")

/-- The inheritance edges of a tree; a class without parents has no entry. -/
def inheritance (root : Node) : InheritanceEdges :=
  ((Place.root root).outermost "isa_declaration").foldl
    (fun edges declaration =>
      match declaration.enclosingClass? with
      | none => edges
      | some child =>
        match parentNames declaration.node with
        | [] => edges
        | parents => Inheritance.extend edges child parents)
    ∅

/-- The `use` statement that a node of that type stands for. -/
def useStatement? (statement : Node) : Option UseStatement := do
  let path ← statement.childByField? "path"
  if path.text = "" then none else some ⟨path.text, statement.info.startPoint.row⟩

/-- The `use` statements of a tree, in the order of the text. -/
def useStatements (root : Node) : List UseStatement :=
  ((Place.root root).outermost "use_statement").filterMap fun place => useStatement? place.node

end Extraction

end ModelAssist
