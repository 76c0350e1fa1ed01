import ModelAssist.Symbol.Entry
import ModelAssist.Text.Lowercase
import ModelAssist.Text.Position

/-!
# Completion items

What is offered at a cursor, and the partial word there by which the offers are filtered, without
regard to case.
-/

namespace ModelAssist

/-- The sorts of completion items. -/
inductive ItemKind where
  | keyword
  | operator
  | builtinType
  | symbol
  | file
deriving DecidableEq, Repr, Inhabited

/-- What is offered at a cursor. -/
structure CompletionItem where
  /-- The text that is offered. -/
  label : String
  kind : ItemKind
  /-- What is said about it. -/
  detail : Option String
  symbolKind : Option SymbolKind
  /-- How many characters before the cursor it replaces; zero inserts it. -/
  replaced : Int
deriving DecidableEq, Repr, Inhabited

namespace ItemKind

/-- The name of a sort. -/
def name : ItemKind → String
  | .keyword => "keyword"
  | .operator => "operator"
  | .builtinType => "type"
  | .symbol => "symbol"
  | .file => "file"

/-- The sort with a given name. -/
def ofName? (name : String) : Option ItemKind :=
  [keyword, operator, builtinType, symbol, file].find? (·.name = name)

end ItemKind

namespace CompletionItem

/-- The item of a keyword. -/
def ofKeyword (keyword : String) : CompletionItem := ⟨keyword, .keyword, none, none, 0⟩

/-- The item of an operator. -/
def ofOperator (operator : String) : CompletionItem := ⟨operator, .operator, none, none, 0⟩

/-- The item of a type that is always there. -/
def ofBuiltinType (type : String) : CompletionItem := ⟨type, .builtinType, some "type", none, 0⟩

/-- The item of a symbol. -/
def ofSymbol (symbol : SymbolEntry) : CompletionItem :=
  ⟨symbol.name, .symbol, some symbol.kind.name, some symbol.kind, 0⟩

/-- The item of a file that replaces what was typed of its name. -/
def ofFile (name typed : String) : CompletionItem :=
  ⟨name, .file, some "Umple file", none, typed.length⟩

/-- Holds if a label starts with what was typed, upper and lower case taken as equal. -/
def matchesTyped (typed label : String) : Bool :=
  typed = "" || (Text.lower typed.toList).isPrefixOf (Text.lower label.toList)

/-- The items whose labels start with what was typed, the first of every label. -/
def filtered (typed : String) (items : List CompletionItem) : List CompletionItem :=
  items.foldl
    (fun kept item =>
      if kept.any (·.label = item.label) || !matchesTyped typed item.label then kept
      else kept ++ [item])
    []

end CompletionItem

namespace TypedText

/-- Holds of the letters of ASCII and the underscore. -/
def startsWord (char : Char) : Bool :=
  char.isAlpha || char = '_'

/-- Holds of the characters of words. -/
def isOfWord (char : Char) : Bool :=
  char.isAlphanum || char = '_'

/-- Holds of the characters of `use` paths. -/
def isOfUsePath (char : Char) : Bool :=
  isOfWord char || char = '.' || char = '/'

/-- The characters of the given class that end a text, from the first that may start a word. -/
def lastRun (isMember : Char → Bool) (text : List Char) : List Char :=
  (text.reverse.takeWhile isMember).reverse.dropWhile (!startsWord ·)

/-- The part of a line before a position. -/
def lineBefore (content : String) (line column : Nat) : List Char :=
  (Text.lineAt content.toList line).take column

/-- The partial word before a position. -/
def word (content : String) (line column : Nat) : String :=
  String.ofList (lastRun isOfWord (lineBefore content line column))

/-- The partial `use` path before a position. -/
def usePath (content : String) (line column : Nat) : String :=
  String.ofList (lastRun isOfUsePath (lineBefore content line column))

end TypedText

end ModelAssist
