import ModelAssist.Text.Position

/-!
# Syntax trees

Nodes of a syntax tree, and places in it.  A place is a node together with the nodes above it, so
that one can go up from it and to the side; two places are the same if they are reached by the same
steps from the root.
-/

namespace ModelAssist.Tree

/-- What a node says about itself. -/
structure NodeInfo where
  /-- The type of the node. -/
  kind : String
  /-- The role that the node plays in the node above it. -/
  field : Option String
  /-- The offset of its first byte. -/
  startByte : Nat
  /-- The offset after its last byte. -/
  endByte : Nat
  /-- The point of its first byte. -/
  startPoint : Text.Point
  /-- The point after its last byte. -/
  endPoint : Text.Point
  /-- The bytes that it covers, if they are known. -/
  bytes : Option (List UInt8)
  /-- Set if the node was added to repair the tree. -/
  isMissing : Bool
  /-- Set if the node may occur anywhere, like a comment. -/
  isExtra : Bool
  /-- The state of the grammar before the node. -/
  state : Nat
  /-- The state of the grammar after the node. -/
  nextState : Nat
deriving Repr, Inhabited

/-- A node and what it consists of. -/
inductive Node where
  /-- A node with the nodes below it, in the order of the text. -/
  | node (info : NodeInfo) (children : List Node)
deriving Repr, Inhabited

namespace Node

/-- What the node says about itself. -/
def info : Node → NodeInfo
  | .node info _ => info

/-- The nodes directly below. -/
def children : Node → List Node
  | .node _ children => children

/-- The type of the node. -/
def kind (node : Node) : String := node.info.kind

/-- The text that the node covers, damaged characters marked. -/
def text (node : Node) : String :=
  match node.info.bytes with
  | some bytes => String.ofList (Text.decodeMarking bytes)
  | none => ""

/-- The first node directly below that plays the given role. -/
def childByField? (node : Node) (field : String) : Option Node :=
  node.children.find? fun child => child.info.field = some field

/-- The text of the node that plays the role `name`, if it is there and not empty. -/
def name? (node : Node) : Option String :=
  match node.childByField? "name" with
  | none => none
  | some name =>
    if name.info.isMissing || name.text = "" then none else some name.text

end Node

/-- A node above a place, and which of its children leads to the place. -/
structure Turn where
  node : Node
  /-- The number of the child. -/
  index : Nat
deriving Inhabited

/-- A node with the nodes above it, nearest first. -/
structure Place where
  node : Node
  above : List Turn
deriving Inhabited

namespace Place

/-- The root of a tree. -/
def root (node : Node) : Place := ⟨node, []⟩

/-- The steps that lead to the place, last one first. -/
def steps (place : Place) : List Nat :=
  place.above.map (·.index)

/-- Holds if two places of one tree are the same. -/
def isSame (left right : Place) : Bool :=
  left.steps = right.steps

/-- The type of the node at the place. -/
def kind (place : Place) : String := place.node.kind

/-- What the node at the place says about itself. -/
def info (place : Place) : NodeInfo := place.node.info

/-- The place of a child with a given number. -/
def childAt (place : Place) (index : Nat) (child : Node) : Place :=
  ⟨child, ⟨place.node, index⟩ :: place.above⟩

/-- The places directly below. -/
def children (place : Place) : List Place :=
  place.node.children.mapIdx fun index child => place.childAt index child

/-- The place directly above. -/
def parent? (place : Place) : Option Place :=
  match place.above with
  | [] => none
  | turn :: rest => some ⟨turn.node, rest⟩

/-- The place of the child before this one. -/
def previousSibling? (place : Place) : Option Place :=
  match place.above with
  | ⟨above, index + 1⟩ :: rest =>
    (above.children[index]?).map fun sibling => ⟨sibling, ⟨above, index⟩ :: rest⟩
  | _ => none

/-- The places above a chain of turns, nearest first. -/
def ancestorsOf : List Turn → List Place
  | [] => []
  | turn :: rest => ⟨turn.node, rest⟩ :: ancestorsOf rest

/-- The place itself and the places above it, nearest first. -/
def selfAndAbove (place : Place) : List Place :=
  place :: ancestorsOf place.above

end Place

mutual

/-- The places of a node and of all nodes below it, in the order of the text. -/
def Node.placesUnder (above : List Turn) : Node → List Place
  | .node info children =>
    ⟨.node info children, above⟩ ::
      Node.placesOfChildren (.node info children) above 0 children

/-- The places of some children of a node and of all nodes below these. -/
def Node.placesOfChildren (parent : Node) (above : List Turn) (index : Nat) :
    List Node → List Place
  | [] => []
  | child :: rest =>
    child.placesUnder (⟨parent, index⟩ :: above) ++
      Node.placesOfChildren parent above (index + 1) rest

end

namespace Place

/-- The place itself and all places below it, in the order of the text. -/
def subtree (place : Place) : List Place :=
  place.node.placesUnder place.above

end Place

mutual

/-- The place reached from a node by going again and again to the first child that fits. -/
def Node.descend (fits : Node → Bool) (above : List Turn) : Node → Place
  | .node info children =>
    (Node.descendInto fits (.node info children) above 0 children).getD
      ⟨.node info children, above⟩

/-- The place reached through the first of some children that fits. -/
def Node.descendInto (fits : Node → Bool) (parent : Node) (above : List Turn) (index : Nat) :
    List Node → Option Place
  | [] => none
  | child :: rest =>
    if fits child then some (child.descend fits (⟨parent, index⟩ :: above))
    else Node.descendInto fits parent above (index + 1) rest

end

namespace Node

/-- Holds if a byte lies in the node; its end does not belong to it. -/
def coversByte (byte : Nat) (node : Node) : Bool :=
  node.info.startByte ≤ byte && byte < node.info.endByte

/-- Holds if a point lies in the node; its end does not belong to it. -/
def coversPoint (point : Text.Point) (node : Node) : Bool :=
  node.info.startPoint.atMost point && point.before node.info.endPoint

/-- The innermost place at a byte. -/
def atByte (root : Node) (byte : Nat) : Place :=
  root.descend (coversByte byte) []

/-- The innermost place at a point. -/
def atPoint (root : Node) (point : Text.Point) : Place :=
  root.descend (coversPoint point) []

end Node

mutual

/-- The last leaf under a node. -/
def Node.lastLeafUnder (above : List Turn) : Node → Place
  | .node info children =>
    (Node.lastLeafOfChildren (.node info children) above 0 children).getD
      ⟨.node info children, above⟩

/-- The last leaf under the last of some children. -/
def Node.lastLeafOfChildren (parent : Node) (above : List Turn) (index : Nat) :
    List Node → Option Place
  | [] => none
  | child :: rest =>
    match Node.lastLeafOfChildren parent above (index + 1) rest with
    | some place => some place
    | none => some (child.lastLeafUnder (⟨parent, index⟩ :: above))

end

namespace Place

/-- The last leaf at or below the place. -/
def lastLeaf (place : Place) : Place :=
  place.node.lastLeafUnder place.above

end Place

mutual

/-- The count of nodes at and below a node. -/
def Node.size : Node → Nat
  | .node _ children => Node.sizeOfChildren children + 1

/-- The count of nodes at and below some nodes. -/
def Node.sizeOfChildren : List Node → Nat
  | [] => 0
  | child :: rest => child.size + Node.sizeOfChildren rest

end

theorem Node.size_eq (node : Node) : node.size = Node.sizeOfChildren node.children + 1 := by
  cases node
  rw [Node.size, Node.children]

theorem Node.sizeOfChildren_append (first second : List Node) :
    Node.sizeOfChildren (first ++ second) =
      Node.sizeOfChildren first + Node.sizeOfChildren second := by
  induction first with
  | nil => simp [Node.sizeOfChildren]
  | cons node rest ih => simp [Node.sizeOfChildren, ih, Nat.add_assoc]

theorem Place.map_node_children (place : Place) :
    place.children.map Place.node = place.node.children := by
  apply List.ext_getElem <;> simp [Place.children, Place.childAt]

/-- The places of the given type that a walk through the pending places comes to, in the order of
the text; the walk does not go below such a place. -/
def outermostFrom (kind : String) (pending : List Place) : List Place :=
  match pending with
  | [] => []
  | place :: rest =>
    if place.kind = kind then place :: outermostFrom kind rest
    else outermostFrom kind (place.children ++ rest)
  termination_by Node.sizeOfChildren (pending.map Place.node)
  decreasing_by
    · have := Node.size_eq place.node
      rw [List.map_cons, Node.sizeOfChildren]
      omega
    · have := Node.size_eq place.node
      rw [List.map_append, Place.map_node_children, Node.sizeOfChildren_append, List.map_cons,
        Node.sizeOfChildren]
      omega

namespace Place

/-- The places of the given type at or below the place that lie below no other such place. -/
def outermost (kind : String) (place : Place) : List Place :=
  outermostFrom kind [place]

end Place

end ModelAssist.Tree
