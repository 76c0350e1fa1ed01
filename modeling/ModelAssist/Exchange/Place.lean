import ModelAssist.Completion.Context
import ModelAssist.Exchange.Answer
import ModelAssist.Tree.Enclosing

/-!
# Places in trees for other programs

What is known about a place in a tree, and about the identifier at a position, as structured values.
A place is named by its number among all places of the tree.
-/

namespace ModelAssist

/-- The number of a place among all places of its tree. -/
def Tree.Place.numberIn (places : List Tree.Place) (place : Tree.Place) : Value :=
  .ofNat (places.findIdx (·.isSame place))

/-- A place as fields. -/
def Tree.Place.toFields (places : List Tree.Place) (place : Tree.Place) :
    List (String × Value) :=
  [("type", .text place.kind), ("text", .text place.node.text),
    ("name", .ofText? place.node.name?), ("class", .ofText? place.enclosingClass?),
    ("machine", .ofText? place.rootStateMachine?), ("comment", .bool place.isInComment),
    ("field", .ofText? place.fieldInParent?), ("last_leaf", numberIn places place.lastLeaf),
    ("attribute_name", .bool (CompletionContext.endsDeclaredType place))]

/-- The identifier, the comment and the `use` path at a position as a record. -/
def Reference.atPositionToValue (grammar : Grammar) (root : Tree.Node) (content : String)
    (line column : Nat) : Value :=
  .ofFields [("token", toValue? (atPosition? grammar root content line column)),
    ("comment", .bool (isCommentAt root content line column)),
    ("use_path", .ofText? (usePathAt? root content line column))]

end ModelAssist
