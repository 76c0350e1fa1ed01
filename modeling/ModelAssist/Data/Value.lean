import ModelAssist.Number.Notation
import ModelAssist.Text.Quoted

/-!
# Structured values

The values of configuration documents, of requests and of validator replies, with their spelling in
messages.  The entries of a record keep the order in which their keys first appeared.
-/

namespace ModelAssist

/-- The key of a record entry. -/
inductive Key where
  | text (name : String)
  /-- Any other scalar, known by its spelling; only configuration documents have these. -/
  | scalar (spelling : String)
deriving DecidableEq, Repr, Inhabited

/-- A structured value. -/
inductive Value where
  /-- The absent value. -/
  | null
  | bool (value : Bool)
  /-- An integer of any size. -/
  | int (value : Int)
  /-- A floating-point number. -/
  | float (value : Float)
  | text (value : String)
  /-- A calendar date or a moment, known by its spelling; only configuration documents have
  these. -/
  | moment (spelling : String)
  | list (elements : List Value)
  /-- A sequence of entries with different keys. -/
  | record (entries : List (Key × Value))
deriving Repr, Inhabited

/-- The entries of a record. -/
abbrev Entries := List (Key × Value)

namespace Entries

/-- The value under a key. -/
def get? (entries : Entries) (key : Key) : Option Value :=
  (entries.find? (·.1 = key)).map (·.2)

/-- The entries after a key got a value: an old key keeps its place, a new one comes last. -/
def insert (entries : Entries) (key : Key) (value : Value) : Entries :=
  match entries with
  | [] => [(key, value)]
  | (other, old) :: rest =>
    if other = key then (key, value) :: rest else (other, old) :: insert rest key value

/-- The entries of a list of pairs, of which a later pair replaces an earlier one. -/
def ofPairs (pairs : List (Key × Value)) : Entries :=
  pairs.foldl (fun entries (key, value) => entries.insert key value) []

/-- The value under a text. -/
def field? (entries : Entries) (name : String) : Option Value :=
  entries.get? (.text name)

end Entries

namespace Value

/-- A record with texts as keys. -/
def ofFields (fields : List (String × Value)) : Value :=
  .record (fields.map fun (name, value) => (.text name, value))

/-- Holds of the values that count as given: not of null, false, zero, and empty texts, lists and
records. -/
def isTruthy : Value → Bool
  | .null => false
  | .bool value => value
  | .int value => value != 0
  | .float value => value != 0
  | .text value => value != ""
  | .moment _ => true
  | .list elements => !elements.isEmpty
  | .record entries => !entries.isEmpty

end Value

/-- The spelling of a key. -/
def Key.spelling : Key → String
  | .text name => Text.quoted name
  | .scalar spelling => spelling

/-- The text of a key. -/
def Key.display : Key → String
  | .text name => name
  | .scalar spelling => spelling

namespace Value

mutual

/-- The spelling of a value, in which texts are quoted. -/
def spelling : Value → String
  | .null => "None"
  | .bool true => "True"
  | .bool false => "False"
  | .int value => Number.intText value
  | .float value => Number.floatText .plain value
  | .text value => Text.quoted value
  | .moment spelling => spelling
  | .list elements => "[" ++ String.intercalate ", " (spellings elements) ++ "]"
  | .record entries => "\x7b" ++ String.intercalate ", " (entrySpellings entries) ++ "\x7d"

/-- The spellings of the elements of a list. -/
def spellings : List Value → List String
  | [] => []
  | value :: rest => value.spelling :: spellings rest

/-- The spellings of the entries of a record. -/
def entrySpellings : List (Key × Value) → List String
  | [] => []
  | (key, value) :: rest => (key.spelling ++ ": " ++ value.spelling) :: entrySpellings rest

end

/-- The text of a value in a message: its spelling, but a text stands for itself. -/
def display : Value → String
  | .text value => value
  | value => value.spelling

end Value

/-! ## Values that can be spelled

The spelling of an integer has a largest length.  A value with an integer in it that is longer has
no spelling.
-/

/-- The largest count of digits of an integer that can be spelled. -/
def spellingLimit : Nat := 4300

/-- What is said of a value that cannot be spelled. -/
def unspellableText : String :=
  "Exceeds the limit (" ++ Number.intText spellingLimit ++
    " digits) for integer string conversion; use sys.set_int_max_str_digits() to increase the limit"

/-- Holds of the keys that can be spelled. -/
def Key.canSpell : Key → Bool
  | .text _ => true
  | .scalar spelling => (spelling.toList.filter Char.isDigit).length ≤ spellingLimit

namespace Value

mutual

/-- Holds of the values that can be spelled. -/
def canSpell : Value → Bool
  | .int value => value.natAbs < 10 ^ spellingLimit
  | .list elements => canSpellAll elements
  | .record entries => canSpellEntries entries
  | _ => true

/-- Holds if all elements of a list can be spelled. -/
def canSpellAll : List Value → Bool
  | [] => true
  | value :: rest => value.canSpell && canSpellAll rest

/-- Holds if all entries of a record can be spelled. -/
def canSpellEntries : List (Key × Value) → Bool
  | [] => true
  | (key, value) :: rest => key.canSpell && value.canSpell && canSpellEntries rest

end

end Value

end ModelAssist
