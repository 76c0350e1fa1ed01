import ModelAssist.Symbol.Reference
import ModelAssist.Workspace.Basic

/-!
# Definitions

Where the identifier at a position is defined.  Members are looked up in the enclosing class and its
ancestors, and states in the enclosing state machine; only if this finds nothing, all symbols of the
right kinds are considered.  Only files that the document reaches count.
-/

namespace ModelAssist.Workspace

variable [Host]

/-- The definitions of a reference in its enclosing class and state machine. -/
def scopedDefinitions (index : SymbolIndex) (reference : Reference) : List SymbolEntry :=
  let kinds := reference.kinds.getD []
  let members := kinds.filter (·.isMember)
  let ofClass :=
    match reference.enclosingClass with
    | some container =>
      if members.isEmpty then []
      else index.lookup ⟨some container, ⟨some members, some reference.word⟩, true⟩
    | none => []
  let ofStateMachine :=
    match reference.enclosingStateMachine with
    | some container =>
      if kinds.contains .state then
        index.lookup ⟨some container, ⟨some [.state], some reference.word⟩, false⟩
      else []
    | none => []
  ofClass ++ ofStateMachine

/-- The definitions of a reference in some files. -/
def definitionsIn (index : SymbolIndex) (files : List Path) (reference : Reference) :
    List SymbolEntry :=
  match visible files (scopedDefinitions index reference) with
  | [] => visible files (index.lookup ⟨none, ⟨reference.kinds, some reference.word⟩, false⟩)
  | found => found

/-- The workspace after a lookup, and the definitions of the identifier at a position of a text. -/
def definitions (workspace : Workspace) (path : Path) (text : String) (line column : Nat) :
    Workspace × List SymbolEntry :=
  match workspace.grammar with
  | none => (workspace, [])
  | some grammar =>
    let path := path.normalize
    let tree := workspace.index.treeFor grammar path.text text
    if Reference.isCommentAt tree text line column then (workspace, [])
    else
      match Reference.atPosition? grammar tree text line column with
      | none => (workspace, [])
      | some reference =>
        let (workspace, files) := workspace.ensureIndexed path text
        (workspace, definitionsIn workspace.index files reference)

/-- The file that the `use` path at a position names. -/
def usedFile? (workspace : Workspace) (path : Path) (text : String) (line column : Nat) :
    Option Path := do
  let path := path.normalize
  let tree ← workspace.treeFor? path text
  let target ← Reference.usePathAt? tree text line (column - 1)
  if isModelName target then some (ImportGraph.resolve target path.parent) else none

end ModelAssist.Workspace
