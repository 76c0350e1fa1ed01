/-!
# Kinds of symbols

The kinds of named entities that a model defines, their names, and the lists of kinds that capture
names encode.
-/

namespace ModelAssist

/-- The kinds of named entities. -/
inductive SymbolKind where
  | «class»
  | interface
  | trait
  | enumeration
  | attribute
  | state
  | stateMachine
  | method
  /-- An association between classes. -/
  | association
  | mixset
  | requirement
  | template
deriving DecidableEq, Repr, Inhabited

namespace SymbolKind

/-- All kinds. -/
def all : List SymbolKind :=
  [.class, .interface, .trait, .enumeration, .attribute, .state, .stateMachine, .method,
    .association, .mixset, .requirement, .template]

/-- The name of a kind. -/
def name : SymbolKind → String
  | .class => "class"
  | .interface => "interface"
  | .trait => "trait"
  | .enumeration => "enum"
  | .attribute => "attribute"
  | .state => "state"
  | .stateMachine => "statemachine"
  | .method => "method"
  | .association => "association"
  | .mixset => "mixset"
  | .requirement => "requirement"
  | .template => "template"

/-- The kind with a given name. -/
def ofName? (name : String) : Option SymbolKind :=
  all.find? (·.name = name)

/-- Holds of the kinds whose container is the nearest class-like entity. -/
def isMember : SymbolKind → Bool
  | .attribute | .method | .template => true
  | _ => false

/-- Holds of the kinds whose container is the outermost state machine. -/
def isOfStateMachine : SymbolKind → Bool
  | .state | .stateMachine => true
  | _ => false

/-- The parts of a text between its underscores. -/
def parts (current : List Char) : List Char → List (List Char)
  | [] => [current.reverse]
  | '_' :: rest => current.reverse :: parts [] rest
  | char :: rest => parts (char :: current) rest

/-- The kinds whose names a text joins by underscores, if all its parts are such names. -/
def listOfTag? (tag : String) : Option (List SymbolKind) :=
  (parts [] tag.toList).mapM fun part => ofName? (String.ofList part)

@[simp] theorem ofName?_name (kind : SymbolKind) : ofName? kind.name = some kind := by
  cases kind <;> decide

end SymbolKind

end ModelAssist
