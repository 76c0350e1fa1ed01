import ModelAssist.Tree.Node

/-!
# What encloses a place

The node types of the Umple grammar that matter for lookups, and the class, the state machine and
the comment that a place lies in.
-/

namespace ModelAssist.Tree

/-- The types of the nodes that own attributes, methods and templates. -/
def classLikeKinds : List String :=
  ["class_definition", "trait_definition", "interface_definition", "association_class_definition"]

/-- The types of the nodes that own states. -/
def stateMachineKinds : List String :=
  ["state_machine", "statemachine_definition", "referenced_statemachine"]

/-- The types of comments. -/
def commentKinds : List String := ["line_comment", "block_comment"]

/-- The types of the leaves that name something. -/
def wordKinds : List String := ["identifier", "use_path"]

namespace Place

/-- Holds at class-like nodes. -/
def isClassLike (place : Place) : Bool := classLikeKinds.contains place.kind

/-- Holds at state machines. -/
def isStateMachine (place : Place) : Bool := stateMachineKinds.contains place.kind

/-- Holds at the leaves that name something. -/
def isWord (place : Place) : Bool := wordKinds.contains place.kind

/-- Holds in comments. -/
def isInComment (place : Place) : Bool :=
  place.selfAndAbove.any fun above => commentKinds.contains above.kind

/-- The nearest class-like place at or above this one. -/
def classPlace? (place : Place) : Option Place :=
  place.selfAndAbove.find? isClassLike

/-- The name of the nearest class-like node at or above the place. -/
def enclosingClass? (place : Place) : Option String :=
  place.classPlace?.bind (·.node.name?)

/-- The name of the outermost named state machine at or above the place, so that all states of
nested machines belong to the same one. -/
def rootStateMachine? (place : Place) : Option String :=
  ((place.selfAndAbove.filter isStateMachine).filterMap (·.node.name?)).getLast?

/-- The role that the node at the place plays in the node above it. -/
def fieldInParent? (place : Place) : Option String :=
  match place.above with
  | [] => none
  | _ => place.info.field

end Place

end ModelAssist.Tree
