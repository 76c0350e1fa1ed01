import ModelAssist.Config.Settings
import ModelAssist.Failure
import ModelAssist.Grammar.Basic

/-!
# Grammar sources

Where a grammar comes from: a shared library if one is set, or else a module.  Its queries have to
fit it.
-/

namespace ModelAssist

/-- Why a module or a shared library gives no language. -/
inductive SupplyFault where
  /-- It cannot be had. -/
  | unavailable (reason : String)
  /-- It can be had, but breaks when it is asked for its language. -/
  | broken (message : String)
deriving DecidableEq, Repr, Inhabited

/-- What grammars can be had. -/
structure GrammarSupply where
  /-- The language that a module provides, or why it provides none. -/
  module : String → Except SupplyFault Language
  /-- The language that a shared library holds under a name, or why it holds none. -/
  library : String → String → Except SupplyFault Language
  /-- The query that a text writes, or why it does not fit the language. -/
  query : String → Except String Tree.Query
  /-- What is added to the text of a query. -/
  addition : String → String

/-- Why there is no grammar. -/
inductive GrammarFault where
  | failure (cause : Failure)
  /-- Its source breaks. -/
  | broken (message : String)
deriving Inhabited

namespace Grammar

/-- The names of the queries with their texts. -/
def queryTexts : List (String × String) :=
  [("definitions", definitionsText), ("references", referencesText),
    ("completions", completionsText)]

/-- A query under its name. -/
def compile (supply : GrammarSupply) (name text : String) : Except GrammarFault Tree.Query :=
  (supply.query (text ++ supply.addition name)).mapError fun reason =>
    .failure (.badQuery name reason)

/-- What becomes of a fault of the given source of a language. -/
def faultOf (source : String) : SupplyFault → GrammarFault
  | .unavailable reason => .failure (.grammarUnavailable source reason)
  | .broken message => .broken message

/-- The language that the settings ask for. -/
def language (supply : GrammarSupply) (settings : GrammarSettings) : Except GrammarFault Language :=
  match settings.libraryPath.getD "" with
  | "" => (supply.module settings.module).mapError (faultOf settings.module)
  | path => (supply.library path settings.symbol).mapError (faultOf path)

/-- The grammar that the settings ask for. -/
def load (supply : GrammarSupply) (settings : GrammarSettings) : Except GrammarFault Grammar := do
  let language ← language supply settings
  let definitions ← compile supply "definitions" definitionsText
  let references ← compile supply "references" referencesText
  let completions ← compile supply "completions" completionsText
  return { language with definitions, references, completions }

/-- The grammar that the settings ask for, if it can be had; only a source that breaks is told
of. -/
def loadIfAvailable (supply : GrammarSupply) (settings : GrammarSettings) :
    Except String (Option Grammar) :=
  match load supply settings with
  | .ok grammar => .ok (some grammar)
  | .error (.failure _) => .ok none
  | .error (.broken message) => .error message

/-- What is said of a module that does not exist; of a dotted name, only the part before the first
dot is named. -/
def missingModule (name : String) : String :=
  "No module named " ++ Text.quoted (String.ofList (name.toList.takeWhile (· ≠ '.')))

/-- What is said of a module that provides no language. -/
def moduleWithoutLanguage : String := "module has no language() function"

/-- What is said of a shared library that does not exist. -/
def missingLibrary (path : String) : String :=
  path ++ ": cannot open shared object file: No such file or directory"

end Grammar

end ModelAssist
