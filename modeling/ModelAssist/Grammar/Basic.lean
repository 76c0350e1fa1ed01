import ModelAssist.Grammar.Queries
import ModelAssist.Tree.Query

/-!
# Grammars

What a loaded grammar offers: the tree of every text, the symbols that may follow in a state, and
the captures of its three queries.
-/

namespace ModelAssist

/-- A symbol that may follow in a state of a grammar. -/
structure NextSymbol where
  name : String
  /-- Set if it is a named rule and not a literal. -/
  isNamed : Bool
deriving DecidableEq, Repr, Inhabited

/-- A language: the tree of every text, and the symbols that may follow in a state. -/
structure Language where
  parse : String → Tree.Node
  /-- The symbols that may follow in a state; there are none in an unknown state. -/
  nextSymbols : Nat → List NextSymbol

/-- A language with its queries. -/
structure Grammar extends Language where
  definitions : Tree.Query
  references : Tree.Query
  completions : Tree.Query

end ModelAssist
