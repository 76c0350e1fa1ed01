import ModelAssist.Import.Closure

/-!
# The lines of imports

Which line of a document pulls in a file, by the name of the file alone, since the validator names
files that way.  A file that the document names itself belongs to that line, and any other to the
line of the first direct import that reaches it.
-/

namespace ModelAssist

/-- The line of the `use` statement for every imported file name. -/
abbrev ImportLines := OrderedMap String Nat

namespace ImportLines

variable [Host]

/-- The lines of the direct imports; a later line for the same name replaces an earlier one. -/
def direct (targets : List (UseStatement × Path)) : ImportLines :=
  targets.foldl (fun lines (statement, target) => lines.insert target.name statement.line) ∅

/-- The names that every direct import reaches, its own among them; the last import of a name
counts. -/
def reaches (graph : ImportGraph) (targets : List (UseStatement × Path)) :
    OrderedMap String (List String) :=
  targets.foldl
    (fun names (_, target) =>
      names.insert target.name ((graph.reachedFrom [target]).map Path.name))
    ∅

/-- Some lines after a name got a line, unless it had one. -/
def offer (line : Nat) (lines : ImportLines) (name : String) : ImportLines :=
  if lines.contains name then lines else lines.insert name line

/-- The lines of all imports of a text at a normalized path. -/
def of (graph : ImportGraph) (path : Path) (text : String) : ImportLines :=
  let targets := graph.targets path text path.parent
  let own := direct targets
  (reaches graph targets).entries.foldl
    (fun lines (name, names) => names.foldl (offer ((own.get? name).getD 0)) lines) own

end ImportLines

end ModelAssist
