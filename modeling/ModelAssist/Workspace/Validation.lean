import ModelAssist.Diagnostic.Placement
import ModelAssist.Validator.Client

/-!
# Validation

What the validator says about the live text of a document.  The document and all that it reaches are
laid out in a shadow, which is left however the validation ends, and the records of the validator
are placed in the text of the document.
-/

namespace ModelAssist.Validation

variable [Host]

/-- What the shadow for a document is made of; a cancelled token stops the work. -/
def shadowRequest (workspace : Workspace) (path : Path) (text : String)
    (cancelled : Option String) : ShadowRequest where
  document := path
  text := text
  reachable := workspace.reachable path text
  unsaved := fun other => .ok (workspace.documents.textFor? other)
  cancelled := fun _ => cancelled.map statedReason

/-- The workbench after a shadow was made that fulfils a request, and the shadow. -/
def makeShadow (request : Workspace → ShadowRequest) (bench : Workbench) :
    Workbench × Except ShadowFault Shadow :=
  let number := bench.shadows + 1
  let work := Shadow.enter (request bench.workspace) number bench.workspace.files
  let removed := match work.result with
    | .ok _ => bench.removed
    | .error _ => bench.removed ++ [Shadow.directory number]
  let holds := bench.holds ++ [.ofResult work.result]
  ({ bench.withFiles work.store with holds, removed }, work.result)

/-- The workbench after a shadow was made for a document, and the shadow. -/
def enter (path : Path) (text : String) (cancelled : Option String) :
    Workbench → Workbench × Except ShadowFault Shadow :=
  makeShadow fun workspace => shadowRequest workspace path text cancelled

/-- The workbench after a shadow was cleaned up by its owner. -/
def leave (index : Nat) (hold : ShadowHold) (bench : Workbench) : Workbench :=
  let (left, files) := hold.cleanUp bench.workspace.files
  { bench.withFiles files with
    holds := bench.holds.set index left
    removed := bench.removed ++ hold.root.toList }

/-- The fault of a validation whose shadow was not made. -/
def ofShadow : ShadowFault → ValidationFault
  | .cancelled reason => .cancelled reason
  | fault => .shadow fault

variable {State : Type} (part : Part State Workbench) (settings : ValidatorSettings)

/-- Does an act in a shadow, which is left however the act ends. -/
def inShadow {Output : Type} (request : Workspace → ShadowRequest)
    (act : Shadow → ValidationAct State Output) : ValidationAct State Output := do
  let index := (← part.look).shadows
  match ← part.step (makeShadow request) with
  | .error fault => Act.fail (ofShadow fault)
  | .ok shadow => Act.ensure (act shadow) (part.change (leave index (.on shadow)))

/-- What the validator writes about a shadow, and the name that it knows the document by. -/
def ask (token : Option TokenId) (shadow : Shadow) :
    ValidationAct State (ValidatorOutput × String) := do
  let output ← ValidatorClient.check part settings shadow.target.text token
  return (output, shadow.target.name)

/-- The diagnostics of a document with the given live text, whose shadow fulfils a request. -/
def validateIn (request : Workspace → ShadowRequest) (path : Path) (text : String)
    (token : Option TokenId) : ValidationAct State (List Diagnostic) := do
  let workspace := (← part.look).workspace
  match ValidatorClient.program settings workspace.files with
  | .error fault => Act.fail fault
  | .ok _ =>
    let imports := workspace.importLines path text
    let (output, filename) ← inShadow part request (ask part settings token)
    match ValidatorRecord.read output.problems with
    | .error fault => Act.fail (.payload fault)
    | .ok records => return Placement.diagnostics records text filename imports

/-- The diagnostics of a document with the given live text. -/
def validate (path : Path) (text : String) (token : Option TokenId) :
    ValidationAct State (List Diagnostic) := do
  let cancelled ← match token with
    | some token => Act.cancelled token
    | none => pure none
  let path := path.normalize
  let request := fun workspace => shadowRequest workspace path text cancelled
  validateIn part settings request path text token

end ModelAssist.Validation
