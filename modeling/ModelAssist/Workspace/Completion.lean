import ModelAssist.Completion.Context
import ModelAssist.Completion.Item
import ModelAssist.Workspace.Basic

/-!
# Completion

The items that are offered at a cursor: keywords and operators, the builtin types where a type may
stand, and the symbols that the scope admits in the files that the document reaches.  In a `use`
statement the model files beside the document are offered instead.
-/

namespace ModelAssist

/-- The types that are always there. -/
def builtinTypes : List String :=
  ["String", "Integer", "Double", "Float", "Boolean", "Date", "Time", "void"]

namespace Workspace

variable [Host]

/-- The workspace after a lookup, the completion context at a position, and the files that the
document reaches. -/
def completionContext (workspace : Workspace) (path : Path) (text : String) (line column : Nat) :
    Workspace × CompletionContext × List Path :=
  match workspace.grammar with
  | none => (workspace, .nothing, [])
  | some grammar =>
    let path := path.normalize
    let (workspace, files) := workspace.ensureIndexed path text
    let tree := workspace.index.treeFor grammar path.text text
    (workspace, CompletionContext.atPosition grammar tree text line column, files)

/-- The symbols of one kind that a context admits: members of the enclosing class with those it
inherits, states of the enclosing state machine, and all symbols of the other kinds. -/
def symbolsOfKind (index : SymbolIndex) (context : CompletionContext) (kind : SymbolKind) :
    List SymbolEntry :=
  let filter : SymbolFilter := ⟨some [kind], none⟩
  if kind.isMember then
    match context.enclosingClass with
    | some container => index.lookup ⟨some container, filter, true⟩
    | none => []
  else if kind = .state then
    match context.enclosingStateMachine with
    | some container => index.lookup ⟨some container, filter, false⟩
    | none => []
  else index.lookup ⟨none, filter, false⟩

/-- The symbols that a context admits. -/
def scopeSymbols (index : SymbolIndex) (context : CompletionContext) : List SymbolEntry :=
  match context.scope, context.enclosingClass with
  | some .ownAttribute, some container =>
    index.lookup ⟨some container, ⟨some [.attribute], none⟩, false⟩
  | some (.symbols kinds), _ => kinds.flatMap (symbolsOfKind index context)
  | _, _ => []

/-- Holds if a context admits the names of types. -/
def admitsTypes (context : CompletionContext) : Bool :=
  match context.scope with
  | some scope => scope.kinds.contains .class && scope.kinds.contains .enumeration
  | none => false

/-- The items that a context admits, before those are left out that do not match what was typed. -/
def candidates (index : SymbolIndex) (context : CompletionContext) (files : List Path) :
    List CompletionItem :=
  context.keywords.map .ofKeyword ++ context.operators.map .ofOperator ++
    (if admitsTypes context then builtinTypes.map .ofBuiltinType else []) ++
    (visible files (scopeSymbols index context)).map .ofSymbol

/-- The model files beside a document whose names start with what was typed. -/
def fileItems (workspace : Workspace) (path : Path) (typed : String) : List CompletionItem :=
  let path := path.normalize
  match workspace.files.list path.parent with
  | .error _ => []
  | .ok names =>
    let offered := names.filter fun name =>
      workspace.files.isFile (path.parent.child name) && isModelName name && name ≠ path.name &&
        CompletionItem.matchesTyped typed name
    (offered.mergeSort fun left right => !decide (right < left)).map (.ofFile · typed)

/-- The workspace after a lookup, and the items that are offered at a position of a text. -/
def completions (workspace : Workspace) (path : Path) (text : String) (line column : Nat) :
    Workspace × List CompletionItem :=
  let (workspace, context, files) := workspace.completionContext path text line column
  let items :=
    if context.isComment || context.isDefinitionName then []
    else
      match context.scope with
      | some .suppress => []
      | some .usePath => workspace.fileItems path (TypedText.usePath text line column)
      | _ =>
        CompletionItem.filtered (TypedText.word text line column)
          (candidates workspace.index context files)
  (workspace, items)

end Workspace

end ModelAssist
