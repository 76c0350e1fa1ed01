import ModelAssist.Proofs.Concurrency.Ending
import ModelAssist.Proofs.FileStore
import ModelAssist.Proofs.Shadow.Filling
import ModelAssist.Proofs.Validator.Client
import ModelAssist.Workspace.Validation

/-!
# How validations end

A validation makes a shadow, has it checked and leaves it.  Making it may fail at every file, and
the check may fail, be cancelled or be interrupted wherever it waits.  In all these cases the
validation ends with what ended this work, and nothing is left of the shadow
(`Validation.ends_cleanly`).
-/

namespace ModelAssist

variable {State Result Fault Output : Type} {part : Part State Workbench}

namespace Part

variable {next : Except (Stop Fault) Output → Process State Result} {state last : State}
  {result : Option Result}

/-- A look at the part leaves the state as it is. -/
theorem ends_look_bind {rest : Workbench → Act State Result Fault Output} :
    ((part.look >>= rest) next).Ends state result last ↔
      (rest (part.get state) next).Ends state result last :=
  Iff.rfl

/-- What follows a step of the part goes on from the state that the step leads to. -/
theorem ends_step_bind {Value : Type} {update : Workbench → Workbench × Value}
    {rest : Value → Act State Result Fault Output} :
    ((part.step update >>= rest) next).Ends state result last ↔
      (rest (update (part.get state)).2 next).Ends
        (part.set (update (part.get state)).1 state) result last :=
  Iff.rfl

end Part

namespace ValidatorClient

variable (settings : ValidatorSettings)

theorem handsOn_ensureStarted (program : Path) :
    (ensureStarted part settings program).HandsOn :=
  holds_ensureStarted Act.HandsOn.closed (fun _ => .change _) (fun _ => .step _) fun _ => trivial

theorem handsOn_send (program : Path) (request : String) :
    (send part settings program request).HandsOn :=
  holds_send Act.HandsOn.closed (holds_exchange Act.HandsOn.closed trivial)
    (handsOn_ensureStarted settings program)

/-- **A check hands on**, whatever becomes of it. -/
theorem handsOn_check [Host] (file : String) (token : Option TokenId) :
    (check part settings file token).HandsOn :=
  holds_check Act.HandsOn.closed (fun program => handsOn_send settings program _)
    (fun _ => trivial) (fun _ => trivial) token

end ValidatorClient

namespace Shadow

variable {request : ShadowRequest} {number : Nat} {store : FileStore}

/-- A shadow is not filled if the work on it is cancelled all along. -/
theorem fill_of_cancelled [Host] {root : Path} {reason : String}
    (cancelled : ∀ count, request.cancelled count = some reason) :
    (fill request root store).result = .error (.cancelled reason) := by
  unfold fill writeDocument
  dsimp only
  cases (extent request).2.filter (· ≠ request.document.normalize) with
  | nil => simp only [layOutAll, cancelled]
  | cons path rest => simp only [layOutAll, cancelled]

/-- A shadow that was not made has left no directory behind. -/
theorem entry?_enter_of_error [Host] {fault : ShadowFault} {path : Path}
    (failed : (enter request number store).result = .error fault)
    (inside : (directory number).isAncestorOf path) :
    (enter request number store).store.entry? path = none := by
  rw [result_enter] at failed
  simp only [enter, failed]
  rw [removeDirectory, FileStore.entry?_removeTree, if_pos inside]

end Shadow

namespace Validation

/-- Holds if nothing is left of a shadow: its owner holds nothing, nothing lies in its directory,
and cleaning it up once more changes nothing. -/
structure IsLeft (bench : Workbench) (index : Nat) : Prop where
  hold : bench.hold index = .nothing
  gone : ∀ path, (Shadow.directory (index + 1)).isAncestorOf path →
    bench.workspace.files.entry? path = none
  again : leave index (bench.hold index) bench = bench

/-- To clean up a shadow of which nothing is held changes nothing. -/
theorem leave_nothing {bench : Workbench} {index : Nat} (nothing : bench.hold index = .nothing) :
    leave index (bench.hold index) bench = bench := by
  have holds : bench.holds.set index .nothing = bench.holds := by
    by_cases there : index < bench.holds.length
    · have own : bench.holds[index] = .nothing := by
        rwa [Workbench.hold, List.getD_eq_getElem?_getD, List.getElem?_eq_getElem there] at nothing
      rw [← own, List.set_getElem_self]
    · exact List.set_eq_of_length_le (Nat.le_of_not_lt there)
  rw [nothing]
  change { bench with holds := bench.holds.set index .nothing, removed := bench.removed ++ [] } =
    bench
  rw [holds, List.append_nil]

theorem IsLeft.of_gone {bench : Workbench} {index : Nat} (hold : bench.hold index = .nothing)
    (gone : ∀ path, (Shadow.directory (index + 1)).isAncestorOf path →
      bench.workspace.files.entry? path = none) : IsLeft bench index :=
  ⟨hold, gone, leave_nothing hold⟩

/-- Nothing is left of a shadow that its owner has cleaned up. -/
theorem isLeft_leave {shadow : Shadow} {index : Nat}
    (root : shadow.root = Shadow.directory (index + 1)) (bench : Workbench) :
    IsLeft (leave index (.on shadow) bench) index := by
  refine .of_gone ?_ fun path inside => ?_
  · rw [Workbench.hold, List.getD_eq_getElem?_getD]
    simp only [leave, ShadowHold.cleanUp, List.getElem?_set_self']
    cases bench.holds[index]? <;> rfl
  · rw [← root] at inside
    exact (FileStore.entry?_removeTree _ _ _).trans (if_pos inside)

/-- Nothing is left of a shadow that could not be made. -/
theorem isLeft_makeShadow [Host] {request : Workspace → ShadowRequest} {bench : Workbench}
    {fault : ShadowFault} (failed : (makeShadow request bench).2 = .error fault) :
    IsLeft (makeShadow request bench).1 bench.shadows := by
  refine .of_gone ?_ fun path inside => Shadow.entry?_enter_of_error failed inside
  have failed' : (Shadow.enter (request bench.workspace) (bench.shadows + 1)
      bench.workspace.files).result = .error fault := failed
  simp [Workbench.hold, makeShadow, failed', ShadowHold.ofResult]

variable (part : Part State Workbench) (settings : ValidatorSettings)

/-- What comes of filling the next shadow of a workbench. -/
def filled [Host] (request : Workspace → ShadowRequest) (bench : Workbench) :
    Except ShadowFault Shadow :=
  let root := Shadow.directory (bench.shadows + 1)
  (Shadow.fill (request bench.workspace) root (bench.workspace.files.put root .directory)).result

/-- How a validation ends after the work in its shadow has ended. -/
def concluded (imports : ImportLines) (text : String) :
    Except (Stop ValidationFault) (ValidatorOutput × String) →
      Except (Stop ValidationFault) (List Diagnostic)
  | .error stop => .error stop
  | .ok (output, filename) =>
    match ValidatorRecord.read output.problems with
    | .error fault => .error (.fault (.payload fault))
    | .ok records => .ok (Placement.diagnostics records text filename imports)

section

variable [Host]

/-- How a validation that begins in a state may end, and in which state it then leaves the rest. -/
inductive Outcome (request : Workspace → ShadowRequest) (path : Path) (text : String)
    (token : Option TokenId) (state : State) :
    Except (Stop ValidationFault) (List Diagnostic) → State → Prop
  /-- The validator cannot be used, and no shadow is made. -/
  | refused {fault : ValidationFault}
      (refuses : ValidatorClient.program settings (part.get state).workspace.files = .error fault) :
      Outcome request path text token state (.error (.fault fault)) state
  /-- The shadow could not be filled. -/
  | unmade {program : Path} {fault : ShadowFault}
      (found : ValidatorClient.program settings (part.get state).workspace.files = .ok program)
      (fails : filled request (part.get state) = .error fault) :
      Outcome request path text token state (.error (.fault (ofShadow fault)))
        (part.set (makeShadow request (part.get state)).1 state)
  /-- The shadow was filled, and the work in it ended in a later state. -/
  | checked {program : Path} {shadow : Shadow} {later : State}
      {ended : Except (Stop ValidationFault) (ValidatorOutput × String)}
      (found : ValidatorClient.program settings (part.get state).workspace.files = .ok program)
      (fills : filled request (part.get state) = .ok shadow)
      (ends : (ask part settings token shadow).Ends
        (part.set (makeShadow request (part.get state)).1 state) ended later) :
      Outcome request path text token state
        (concluded ((part.get state).workspace.importLines path text) text ended)
        (part.set (leave (part.get state).shadows (.on shadow) (part.get later)) later)

variable {part} {settings}

theorem handsOn_ask (token : Option TokenId) (shadow : Shadow) :
    (ask part settings token shadow).HandsOn :=
  .bind (ValidatorClient.handsOn_check settings _ token) fun _ => .pure _

/-- A shadow is left however the act ends that is done in it. -/
theorem ends_inShadow {request : Workspace → ShadowRequest}
    {act : Shadow → ValidationAct State Output} (handsOn : ∀ shadow, (act shadow).HandsOn)
    {next : Except (Stop ValidationFault) Output →
      Process State (Except ValidationFault ValidatorOutput)} {state last : State}
    {result : Option (Except ValidationFault ValidatorOutput)}
    (ends : (inShadow part request act next).Ends state result last) :
    let made := part.set (makeShadow request (part.get state)).1 state
    let index := (part.get state).shadows
    (∃ fault, filled request (part.get state) = .error fault ∧
      (next (.error (.fault (ofShadow fault)))).Ends made result last) ∨
    ∃ shadow ended later, filled request (part.get state) = .ok shadow ∧
      (act shadow).Ends made ended later ∧
      (next ended).Ends (part.set (leave index (.on shadow) (part.get later)) later) result
        last := by
  intro made index
  have came : (makeShadow request (part.get state)).2 = filled request (part.get state) :=
    Shadow.result_enter
  rw [inShadow, Part.ends_look_bind, Part.ends_step_bind, came] at ends
  cases fills : filled request (part.get state) with
  | error fault =>
      rw [fills] at ends
      exact .inl ⟨fault, rfl, ends⟩
  | ok shadow =>
      rw [fills] at ends
      obtain ⟨ended, later, before, after⟩ := handsOn shadow _ made result last ends
      refine .inr ⟨shadow, ended, later, rfl, before, ?_⟩
      cases ended with
      | ok value => exact after
      | error stop => exact after

/-- A validation hands on with one of its outcomes. -/
theorem outcome_validateIn {request : Workspace → ShadowRequest} {path : Path} {text : String}
    {token : Option TokenId} {next : Except (Stop ValidationFault) (List Diagnostic) →
      Process State (Except ValidationFault ValidatorOutput)} {state last : State}
    {result : Option (Except ValidationFault ValidatorOutput)}
    (ends : (validateIn part settings request path text token next).Ends state result last) :
    ∃ output final, Outcome part settings request path text token state output final ∧
      (next output).Ends final result last := by
  rw [validateIn, Part.ends_look_bind] at ends
  dsimp only at ends
  cases found : ValidatorClient.program settings (part.get state).workspace.files with
  | error fault =>
      rw [found] at ends
      exact ⟨_, state, .refused found, ends⟩
  | ok program =>
      rw [found] at ends
      rcases ends_inShadow (handsOn_ask token) ends with
        ⟨fault, fails, after⟩ | ⟨shadow, ended, later, fills, before, after⟩
      · exact ⟨_, _, .unmade found fails, after⟩
      · refine ⟨_, _, .checked found fills before, ?_⟩
        cases ended with
        | error stop => exact after
        | ok answer =>
            dsimp only [concluded] at after ⊢
            cases read : ValidatorRecord.read answer.1.problems with
            | error fault =>
                rw [read] at after
                exact after
            | ok records =>
                rw [read] at after
                exact after

/-- Holds if nothing is left behind of what a validation did, which makes a shadow only if the
validator can be used. -/
def LeavesNothing (part : Part State Workbench) (settings : ValidatorSettings)
    (state final : State) : Prop :=
  match ValidatorClient.program settings (part.get state).workspace.files with
  | .error _ => final = state
  | .ok _ => IsLeft (part.get final) (part.get state).shadows

/-- **Nothing is left behind** by a validation, however it ends. -/
theorem Outcome.leavesNothing (lawful : part.Lawful) {request : Workspace → ShadowRequest}
    {path : Path} {text : String} {token : Option TokenId} {state final : State}
    {output : Except (Stop ValidationFault) (List Diagnostic)}
    (outcome : Outcome part settings request path text token state output final) :
    LeavesNothing part settings state final := by
  unfold LeavesNothing
  cases outcome with
  | refused refuses => rw [refuses]
  | unmade found fails =>
      rw [found]
      dsimp only
      rw [lawful]
      exact isLeft_makeShadow (Shadow.result_enter.trans fails)
  | checked found fills ends =>
      rw [found]
      dsimp only
      rw [lawful]
      exact isLeft_leave (Shadow.root_of_fill fills) _

/-- A validation that ends has one of the outcomes and leaves nothing behind. -/
theorem outcome_validateIn_clean (lawful : part.Lawful) {request : Workspace → ShadowRequest}
    {path : Path} {text : String} {token : Option TokenId}
    {next : Except (Stop ValidationFault) (List Diagnostic) →
      Process State (Except ValidationFault ValidatorOutput)} {state last : State}
    {result : Option (Except ValidationFault ValidatorOutput)}
    (ends : (validateIn part settings request path text token next).Ends state result last) :
    ∃ output final, Outcome part settings request path text token state output final ∧
      LeavesNothing part settings state final ∧ (next output).Ends final result last := by
  obtain ⟨output, final, outcome, after⟩ := outcome_validateIn ends
  exact ⟨output, final, outcome, outcome.leavesNothing lawful, after⟩

/-- A validation is one whose shadow holds what the document reaches; a token that is cancelled at
the beginning stops the work on it. -/
theorem ends_validate {path : Path} {text : String} {token : Option TokenId}
    {next : Except (Stop ValidationFault) (List Diagnostic) →
      Process State (Except ValidationFault ValidatorOutput)} {state last : State}
    {result : Option (Except ValidationFault ValidatorOutput)}
    (ends : (validate part settings path text token next).Ends state result last) :
    ∃ cancelled, let request := fun workspace =>
        shadowRequest workspace path.normalize text cancelled
      (validateIn part settings request path.normalize text token next).Ends state result last := by
  cases token with
  | none => exact ⟨none, ends⟩
  | some token => exact ends

/-- Whatever turns an agenda takes, a task that validates a document leaves nothing behind. -/
theorem awaits_validate (lawful : part.Lawful)
    (agenda : Agenda State (Except ValidationFault ValidatorOutput)) (path : Path) (text : String)
    (token : Option TokenId) (next : Except (Stop ValidationFault) (List Diagnostic) →
      Process State (Except ValidationFault ValidatorOutput)) :
    (agenda.start (validate part settings path text token next)).Awaits agenda.tasks.size
      fun result last => result = none ∨ ∃ state output final,
        LeavesNothing part settings state final ∧ (next output).Ends final result last := by
  refine Agenda.awaits_start (fun state result last ends => .inr ?_) fun _ => .inl rfl
  obtain ⟨cancelled, ends⟩ := ends_validate ends
  obtain ⟨output, final, -, nothing, after⟩ := outcome_validateIn_clean lawful ends
  exact ⟨state, output, final, nothing, after⟩

/-- **A validation ends with what ended its work, and leaves nothing behind.**  This holds whatever
is requested of its shadow: whichever files it holds, whichever of them cannot be laid out, and
before whichever of them the work is cancelled. -/
theorem ends_cleanly (lawful : part.Lawful) (path : Path) (text : String) (token : Option TokenId)
    (next : Except (Stop ValidationFault) (List Diagnostic) →
      Process State (Except ValidationFault ValidatorOutput)) (state last : State)
    (result : Option (Except ValidationFault ValidatorOutput)) :
    let clean := fun (request : Workspace → ShadowRequest) (path : Path) => ∃ output final,
      Outcome part settings request path text token state output final ∧
        LeavesNothing part settings state final ∧ (next output).Ends final result last
    (∀ request, (validateIn part settings request path text token next).Ends state result last →
      clean request path) ∧
    ((validate part settings path text token next).Ends state result last → ∃ cancelled,
      clean (fun workspace => shadowRequest workspace path.normalize text cancelled)
        path.normalize) := by
  intro clean
  refine ⟨fun request ends => outcome_validateIn_clean lawful ends, fun ends => ?_⟩
  obtain ⟨cancelled, ends⟩ := ends_validate ends
  exact ⟨cancelled, outcome_validateIn_clean lawful ends⟩

end

/-- A store that holds the program of a validator. -/
def equipped : FileStore where
  entries := ⟨[(⟨.root, []⟩, .directory), (⟨.root, ["umple.jar"]⟩, .file [])]⟩
  links := .allowed

section

open scoped Trial

/-- The work on the shadow of a document without imports is cancelled before the document is
written. -/
theorem ends_cleanly_superseded :
    let settings : ValidatorSettings := { (default : ValidatorSettings) with
      jarPath := some "/umple.jar" }
    let bench : Workbench := .initial ⟨none, ∅, equipped, ∅⟩ (.initial [] [])
    let request := fun _ : Workspace => ({
      document := ⟨.root, ["w", "a.ump"]⟩
      text := ""
      reachable := []
      unsaved := fun _ => .ok none
      cancelled := fun _ => some "superseded" } : ShadowRequest)
    let last := (makeShadow request bench).1
    let next := fun _ : Except (Stop ValidationFault) (List Diagnostic) =>
      (.finish none : Process Workbench (Except ValidationFault ValidatorOutput))
    (validateIn Part.whole settings request ⟨.root, ["w", "a.ump"]⟩ "" none next).Ends
        bench none last ∧
      ∃ output final, Outcome Part.whole settings request ⟨.root, ["w", "a.ump"]⟩ "" none bench
        output final ∧ LeavesNothing Part.whole settings bench final ∧
          (next output).Ends final none last := by
  intro settings bench request last next
  have found : ValidatorClient.program settings bench.workspace.files =
      .ok ⟨.root, ["umple.jar"]⟩ := by
    have there : FileStore.isFile equipped ⟨.root, ["umple.jar"]⟩ = true := by
      decide +kernel
    have given : settings.jarPath.getD "" = "/umple.jar" := rfl
    simp only [ValidatorClient.program, given]
    exact if_pos there
  have fails : (makeShadow request bench).2 = .error (.cancelled "superseded") := by
    rw [makeShadow, Shadow.result_enter]
    exact Shadow.fill_of_cancelled fun _ => rfl
  have ends : (validateIn Part.whole settings request ⟨.root, ["w", "a.ump"]⟩ "" none
      next).Ends bench none last := by
    have whole : Part.whole.get bench = bench := rfl
    rw [validateIn, Part.ends_look_bind, whole]
    dsimp only
    rw [found]
    change (inShadow Part.whole request (ask Part.whole settings none) _).Ends bench none last
    rw [inShadow, Part.ends_look_bind, Part.ends_step_bind, whole, fails]
    exact ⟨rfl, rfl⟩
  exact ⟨ends, (ends_cleanly (fun _ _ => rfl) _ _ _ next bench last none).1 request ends⟩

end

end Validation

end ModelAssist
