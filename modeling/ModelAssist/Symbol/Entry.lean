import ModelAssist.Path.Basic
import ModelAssist.Symbol.Kind

/-!
# Symbols

What the index knows about one definition and about one `use` statement.
-/

namespace ModelAssist

/-- A position in a document, both counts from zero and the second in characters. -/
structure Position where
  line : Nat
  /-- The number of the character in the line. -/
  column : Nat
deriving DecidableEq, Repr, Inhabited

/-- A definition that was found in a file. -/
structure SymbolEntry where
  name : String
  kind : SymbolKind
  /-- The file that holds the definition. -/
  file : String
  start : Position
  /-- Where the name ends. -/
  stop : Position
  /-- The class or the outermost state machine that the definition belongs to. -/
  container : Option String
deriving DecidableEq, Repr, Inhabited

/-- A `use` statement, which names a file or a mixset. -/
structure UseStatement where
  target : String
  line : Nat
deriving DecidableEq, Repr, Inhabited

/-- Holds of the names that end like the names of model files. -/
def isModelName (name : String) : Bool :=
  modelSuffix.toList.isSuffixOf name.toList

/-- Holds if a `use` statement names a file. -/
def UseStatement.isFile (statement : UseStatement) : Bool :=
  isModelName statement.target

/-- A condition on symbols: one of some kinds, and a name. -/
structure SymbolFilter where
  /-- The admitted kinds, or all of them. -/
  kinds : Option (List SymbolKind)
  /-- The admitted name, or all of them. -/
  name : Option String
deriving DecidableEq, Repr, Inhabited

/-- Holds if a symbol meets a condition. -/
def SymbolFilter.admits (filter : SymbolFilter) (symbol : SymbolEntry) : Bool :=
  (match filter.kinds with
    | some kinds => kinds.contains symbol.kind
    | none => true) &&
  (match filter.name with
    | some name => symbol.name = name
    | none => true)

end ModelAssist
