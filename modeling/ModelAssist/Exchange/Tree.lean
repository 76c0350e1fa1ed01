import ModelAssist.Data.Access
import ModelAssist.Tree.Node

/-!
# Trees from other programs

A syntax tree that a parser hands over as nested lists.  A node is a list of its type, its role in
the node above it, its first byte and the byte after its last one, the nodes below it, and a record
of marks; the last two may be left out.
-/

namespace ModelAssist.Tree

/-- The bytes of a text and the point before each of them. -/
structure Layout where
  bytes : Array UInt8
  /-- The points, one more than there are bytes. -/
  points : Array Text.Point

namespace Layout

/-- The layout of a text. -/
def ofText (content : String) : Layout :=
  let bytes := Text.utf8 content.toList
  let step := fun ((points, point) : Array Text.Point × Text.Point) (byte : UInt8) =>
    let next : Text.Point :=
      if byte = 10 then ⟨point.row + 1, 0⟩ else ⟨point.row, point.column + 1⟩
    (points.push next, next)
  ⟨bytes.toArray, (bytes.foldl step (#[⟨0, 0⟩], ⟨0, 0⟩)).1⟩

/-- The point of an offset; behind the end of the text the last row goes on. -/
def pointAt (layout : Layout) (offset : Nat) : Text.Point :=
  let last := layout.points.back?.getD ⟨0, 0⟩
  layout.points.getD offset ⟨last.row, last.column + (offset + 1 - layout.points.size)⟩

end Layout

namespace Node

/-- What a node with the given type, role, ends and marks says about itself. -/
def infoOf (layout : Layout) (kind role start stop marks : Value) : NodeInfo :=
  let first := start.asNat
  let last := stop.asNat
  { kind := kind.asText
    field := role.asText?
    startByte := first
    endByte := last
    startPoint := layout.pointAt first
    endPoint := layout.pointAt last
    bytes :=
      if (marks.get "no_text").asFlag then none else some (layout.bytes.extract first last).toList
    isMissing := (marks.get "missing").asFlag
    isExtra := (marks.get "extra").asFlag
    state := marks.nat "state"
    nextState := marks.nat "next" }

mutual

/-- The node that a value stands for. -/
def ofValue (layout : Layout) : Value → Node
  | .list [kind, role, start, stop] => .node (infoOf layout kind role start stop .null) []
  | .list [kind, role, start, stop, .list children] =>
    .node (infoOf layout kind role start stop .null) (ofValues layout children)
  | .list (kind :: role :: start :: stop :: .list children :: marks :: _) =>
    .node (infoOf layout kind role start stop marks) (ofValues layout children)
  | .list (kind :: role :: start :: stop :: _ :: marks) =>
    .node (infoOf layout kind role start stop (marks.head?.getD .null)) []
  | _ => default

/-- The nodes that a list of values stands for. -/
def ofValues (layout : Layout) : List Value → List Node
  | [] => []
  | value :: rest => ofValue layout value :: ofValues layout rest

end

/-- The tree of a text about which nothing is known: one node that covers all of it. -/
def bare (content : String) : Node :=
  let bytes := Text.utf8 content.toList
  .node (infoOf (Layout.ofText content) (.text "source_file") .null (.int 0) (.int bytes.length)
    .null) []

end Node

/-- A text with its tree, if that is known. -/
structure Source where
  content : String
  tree : Option Node
deriving Inhabited

namespace Source

/-- The source that a record of a text and a tree stands for. -/
def ofValue (value : Value) : Source :=
  let content := (value.get "text").asText
  ⟨content, (value.given? "tree").map (Node.ofValue (Layout.ofText content))⟩

/-- The tree of a text by the last source that has the text; without one it is a single node. -/
def parse (sources : List Source) (content : String) : Node :=
  match sources.reverse.find? fun source => source.content == content with
  | some ⟨_, some tree⟩ => tree
  | _ => Node.bare content

/-- A text that is given itself or by the number of its source. -/
def textOf (sources : List Source) : Value → String
  | .text text => text
  | .int number => (sources[number.toNat]?).elim "" (·.content)
  | _ => ""

end Source

end ModelAssist.Tree
