import ModelAssist.Data.Value

/-!
# Access to structured values

Views of a value as a text, a number, a list or a record.  What a value is not is taken as empty,
so that requests with missing or odd fields still mean something.
-/

namespace ModelAssist.Value

/-- The value of a field, null if there is none. -/
def get (value : Value) (name : String) : Value :=
  match value with
  | .record entries => (Entries.field? entries name).getD .null
  | _ => .null

/-- The value of a field that is there and not null. -/
def given? (value : Value) (name : String) : Option Value :=
  match value.get name with
  | .null => none
  | other => some other

/-- Holds if a field is there, null or not. -/
def has (value : Value) (name : String) : Bool :=
  match value with
  | .record entries => (Entries.field? entries name).isSome
  | _ => false

/-- The text that a value is. -/
def asText? : Value → Option String
  | .text content => some content
  | _ => none

/-- The text that a value is, empty if it is none. -/
def asText (value : Value) : String := value.asText?.getD ""

/-- The integer that a value is, zero if it is none; fractions are dropped. -/
def asInt : Value → Int
  | .int value => value
  | .float value => Number.truncated value
  | _ => 0

/-- The natural number that a value is, zero if it is none. -/
def asNat (value : Value) : Nat := value.asInt.toNat

/-- The number that a value is, zero if it is none. -/
def asFloat : Value → Float
  | .int value => Number.ofInt value
  | .float value => value
  | _ => 0

/-- The elements of a list. -/
def asList : Value → List Value
  | .list elements => elements
  | _ => []

/-- The entries of a record. -/
def asEntries : Value → Entries
  | .record entries => entries
  | _ => []

/-- The fields of a record. -/
def asFields (value : Value) : List (String × Value) :=
  value.asEntries.map fun (key, value) => (key.display, value)

/-- Holds of the value true. -/
def asFlag : Value → Bool
  | .bool value => value
  | _ => false

/-- The texts of a list. -/
def asTexts (value : Value) : List String := value.asList.map asText

/-- The text in a field. -/
def text? (value : Value) (name : String) : Option String := (value.get name).asText?

/-- The natural number in a field. -/
def nat (value : Value) (name : String) : Nat := (value.get name).asNat

/-- The elements of a list in a field. -/
def listAt (value : Value) (name : String) : List Value := (value.get name).asList

/-- A text or null. -/
def ofText? : Option String → Value
  | some content => .text content
  | none => .null

/-- A list of texts. -/
def ofTexts (texts : List String) : Value := .list (texts.map .text)

/-- A natural number. -/
def ofNat (number : Nat) : Value := .int number

end ModelAssist.Value
