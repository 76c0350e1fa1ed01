import ModelAssist.Shadow
import ModelAssist.Validator.Script
import ModelAssist.Workspace.Basic

/-!
# Workbenches

A workspace with what validations need beside it: the surroundings of the validator client, and the
shadows that were made and removed.
-/

namespace ModelAssist

/-- A part of a larger state. -/
structure Part (Whole Inner : Type) where
  /-- The part of a state. -/
  get : Whole → Inner
  /-- The state with another part. -/
  set : Inner → Whole → Whole

namespace Part

variable {Whole Inner Result Fault : Type}

/-- The whole as its own part. -/
def whole : Part Inner Inner := ⟨id, fun inner _ => inner⟩

/-- Looks at a part of the state. -/
def look (part : Part Whole Inner) : Act Whole Result Fault Inner := do
  return part.get (← Act.look)

/-- Changes a part of the state. -/
def change (part : Part Whole Inner) (update : Inner → Inner) : Act Whole Result Fault Unit :=
  Act.change fun whole => part.set (update (part.get whole)) whole

/-- Changes a part of the state and yields a value. -/
def step {Output : Type} (part : Part Whole Inner) (update : Inner → Inner × Output) :
    Act Whole Result Fault Output :=
  Act.step fun whole =>
    let (inner, output) := update (part.get whole)
    (part.set inner whole, output)

end Part

/-- A workspace with what validations need beside it. -/
structure Workbench where
  workspace : Workspace
  /-- The surroundings of the validator client. -/
  surround : Surround
  /-- What the owners of the shadows have of them, in the order in which these were made. -/
  holds : List ShadowHold
  /-- The directories of the shadows that were removed. -/
  removed : List Path

namespace Workbench

/-- A workbench on which nothing was done yet. -/
def initial (workspace : Workspace) (surround : Surround) : Workbench :=
  ⟨workspace, surround, [], []⟩

/-- How many shadows were made. -/
abbrev shadows (bench : Workbench) : Nat :=
  bench.holds.length

/-- What the owner of a shadow has of it. -/
def hold (bench : Workbench) (index : Nat) : ShadowHold :=
  bench.holds.getD index .nothing

/-- The workbench with other files. -/
def withFiles (bench : Workbench) (files : FileStore) : Workbench :=
  { bench with workspace := { bench.workspace with files } }

/-- The workbench with one more event in the trace. -/
def record (bench : Workbench) (event : NetworkEvent) : Workbench :=
  { bench with surround := bench.surround.record event }

/-- The workbench with another launcher. -/
def withLauncher (bench : Workbench) (launcher : Launcher) : Workbench :=
  { bench with surround := { bench.surround with launcher } }

end Workbench

end ModelAssist
