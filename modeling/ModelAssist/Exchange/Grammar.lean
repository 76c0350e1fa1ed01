import ModelAssist.Data.Access
import ModelAssist.Grammar.Source

/-!
# Grammars from other programs

The symbols that may follow in the states of a grammar, handed over as lists of rows, and what
grammars there are besides.
-/

namespace ModelAssist

/-- The symbol of a row of a name, whether it is a named symbol, and whether it is visible; rows of
invisible symbols have none. -/
def NextSymbol.ofRow? (row : Value) : Option NextSymbol :=
  match row.asList with
  | [name, named] => some ⟨name.asText, named.asFlag⟩
  | [name, named, visible] => if visible.asFlag then some ⟨name.asText, named.asFlag⟩ else none
  | _ => none

/-- The symbols of some rows. -/
def NextSymbol.ofRows (rows : Value) : List NextSymbol :=
  rows.asList.filterMap ofRow?

/-- The symbols of the rows under the number of a state. -/
def NextSymbol.inState (rows : Value) (state : Nat) : List NextSymbol :=
  ofRows (rows.get (Number.intText state))

/-- The grammars that can be had by a record: the usual module has a language, another one has none,
further modules and shared libraries do not exist, and queries with certain texts do not fit. -/
def GrammarSupply.ofValue (language : Language) (bare : String) (value : Value) :
    GrammarSupply where
  module := fun name =>
    if name = (default : GrammarSettings).module then .ok language
    else if name = bare then .error (.unavailable Grammar.moduleWithoutLanguage)
    else .error (.unavailable (Grammar.missingModule name))
  library := fun path _ => .error (.unavailable (Grammar.missingLibrary path))
  query := fun text =>
    let fault := (value.get "query_errors").asFields.find? fun (part, _) =>
      (text.splitOn part).length ≠ 1
    match fault with
    | some (_, message) => .error message.asText
    | none => .ok (Tree.Query.ofText text)
  addition := fun name => ((value.get "extra_queries").get name).asText

end ModelAssist
