import ModelAssist.Proofs.Concurrency
import ModelAssist.Proofs.Config.Overlooked
import ModelAssist.Session.Start

/-!
# How a session begins

A session begins with the settings of the user, or with the defaults and a warning where something
about these settings is wrong and reported.  What is overlooked in them is not reported, and then
the session does not begin (`Session.answered_iff_not_overlooked`).  Nor does it where its log
cannot be opened or the source of its grammar breaks (`Session.SetsUp`).  The defaults open no files
(`Log.openFiles_default`), but a log in the place of a directory never opens
(`Log.openFile_of_isDirectory`).
-/

namespace ModelAssist

/-- Holds of attempts that end well, or in a report of what is wrong with the configuration. -/
def Answered {Result : Type} (meets : Result → Prop) (outcome : Except LoadFault Result) : Prop :=
  (∃ result, outcome = .ok result ∧ meets result) ∨
    ∃ cause, outcome = .error (.failure cause) ∧ cause.kind.area = .config

/-- An attempt with good results is answered exactly if no fault escapes from it. -/
theorem answered_iff {Result : Type} {meets : Result → Prop} {outcome : Except LoadFault Result}
    (good : ∀ result, outcome = .ok result → meets result)
    (config : Settings.ConcernsConfig outcome) : Answered meets outcome ↔ ¬ Escapes outcome := by
  rw [not_escapes_iff]
  constructor
  · rintro (⟨result, ended, -⟩ | ⟨cause, failed, -⟩)
    · exact .inl ⟨result, ended⟩
    · exact .inr ⟨cause, failed⟩
  · rintro (⟨result, ended⟩ | ⟨cause, failed⟩)
    · exact .inl ⟨result, ended, good result ended⟩
    · exact .inr ⟨cause, failed, config cause failed⟩

/-- What flat names stand for is either orderly sections or reported, unless it is overlooked. -/
theorem FlatName.answered_sections_iff [Host] {values : Entries} {names : List FlatName}
    (distinct : (names.map target).Nodup) :
    Answered Tidy ((sections values names).mapError .ofFlat) ↔ ¬ Overlooked values names := by
  rw [← escapes_sections_iff]
  apply answered_iff _ (.flat values names)
  intro found ended
  have both : Tidy found ∧ found.at? "" "" = said? values names "" "" :=
    of_sections distinct (mapError_eq_ok_iff.mp ended)
  exact both.1

/-- The overrides of an editor are the sections of its flat names. -/
theorem Settings.editorOverrides_eq [Host] (options : Value) : editorOverrides options =
    (FlatName.sections options.asEntries FlatName.editor).mapError .ofFlat := by
  cases options <;> rfl

namespace Log

/-- By the defaults no file is opened. -/
theorem openFiles_default [Host] (files : FileStore) :
    openFiles (default : Settings).logging files = (.ok (), files) := rfl

variable {files after : FileStore} {path : Path}

/-- The second of two steps begins with the files that the first one left, if that succeeded. -/
theorem bind_opening {First Last : Type} (first : Opening First) (next : First → Opening Last)
    (files : FileStore) :
    (first >>= next : Opening Last) files =
      match first files with
      | (.ok held, after) => next held after
      | (.error fault, after) => (.error fault, after) := by
  change (ExceptT.bindCont next (first files).1) (first files).2 = _
  cases first files with
  | mk result after => cases result <;> rfl

private theorem isDirectory_of_makeDirectories {directory : Path}
    (made : files.makeDirectories directory = .ok after) (there : files.isDirectory path) :
    after.isDirectory path := by
  have extended := (FileStore.makeDirectories_eq_ok made).1
  refine decide_eq_true ?_
  rw [FileStore.lookup?, extended.resolve_eq]
  exact extended.entry?_of_some (of_decide_eq_true there)

/-- A directory stays one when others are made. -/
private theorem isDirectory_of_forM {directories : List Path} (there : files.isDirectory path) :
    ((directories.forM fun directory => change (·.makeDirectories directory)) files).2.isDirectory
      path := by
  induction directories generalizing files with
  | nil => exact there
  | cons directory rest ih =>
      rw [List.forM, bind_opening]
      cases made : files.makeDirectories directory with
      | error fault =>
          simp only [change, made]
          exact there
      | ok after =>
          simp only [change, made]
          exact ih (isDirectory_of_makeDirectories made there)

/-- A log does not open where a directory is in the place of its file. -/
theorem openFile_of_isDirectory [Host] {destination : String}
    (there : files.isDirectory (Path.normalized destination)) :
    ∃ fault, (openFile destination files).1 = .error fault := by
  have refused {files : FileStore} (there : files.isDirectory (Path.normalized destination)) :
      files.openAppending (Path.normalized destination) =
        .error (.isDirectory (Path.normalized destination)) := by
    have entry : files.entry? (files.resolve (Path.normalized destination)) = some .directory :=
      of_decide_eq_true there
    simp [FileStore.openAppending, entry]
  unfold openFile
  split
  · exact ⟨_, rfl⟩
  · dsimp only
    have kept : (((directoriesAbove (Path.ofText destination)).forM fun directory =>
        change (·.makeDirectories directory)) files).2.isDirectory (Path.normalized destination) :=
      isDirectory_of_forM there
    rw [bind_opening]
    split
    · next after made =>
        rw [made] at kept
        simp only [change, refused kept]
        exact ⟨_, rfl⟩
    · exact ⟨_, rfl⟩

end Log

namespace Session

variable {source : SessionSource} {files : FileStore} {root : Option Path} {options : Value}

section

variable [Host]

/-- Holds if the first fault in the options of an editor, or else in the other sources of settings,
is one that is not reported. -/
inductive Unreported (source : SessionSource) (files : FileStore) (root : Option Path)
    (options : Value) : Prop
  | options (overlooked : FlatName.Overlooked options.asEntries FlatName.editor)
  | settings {overrides : Entries} (taken : Settings.editorOverrides options = .ok overrides)
      (overlooked : Settings.Overlooked files source.environment
        (root.getD Host.workingDirectory) overrides)

/-- The settings that a session loads. -/
def loadedFor (source : SessionSource) (files : FileStore) (root : Option Path)
    (options : Value) : Except LoadFault Settings := do
  let overrides ← Settings.editorOverrides options
  Settings.load files source.environment (root.getD Host.workingDirectory) overrides

/-- The settings of a session and its warnings: those that were loaded and none, or the defaults and
one warning that tells what is wrong with the configuration. -/
inductive Configures (source : SessionSource) (files : FileStore) (root : Option Path)
    (options : Value) : Settings → List String → Prop
  | loaded {settings : Settings} (loaded : loadedFor source files root options = .ok settings) :
      Configures source files root options settings []
  | reported {cause : Failure}
      (reported : loadedFor source files root options = .error (.failure cause))
      (config : cause.kind.area = .config) :
      Configures source files root options default
        ["Invalid umple-lsp configuration: " ++ cause.message]

/-- What becomes of a session that is to work by some settings: it does, or its log cannot be opened
or the source of its grammar breaks.  Then the editor is told that the start failed, and the session
goes on by its old settings but for those of the log. -/
inductive SetsUp (source : SessionSource) (settings : Settings) (request : Value)
    (session : Session) : Session → Prop
  | begun {files : FileStore} {grammar : Option Grammar}
      (opened : Log.openFiles settings.logging session.bench.workspace.files = (.ok (), files))
      (had : Grammar.loadIfAvailable source.supply settings.grammar = .ok grammar) :
      SetsUp source settings request session
        (((session.logging settings files).working settings grammar).tell (.begun request))
  | unopened {files : FileStore} {fault : Log.OpenFault}
      (failed : Log.openFiles settings.logging session.bench.workspace.files =
        (.error fault, files)) :
      SetsUp source settings request session
        ((session.logging settings files).tell (.refused request .internal))
  | broken {files : FileStore} {message : String}
      (opened : Log.openFiles settings.logging session.bench.workspace.files = (.ok (), files))
      (breaks : Grammar.loadIfAvailable source.supply settings.grammar = .error message) :
      SetsUp source settings request session
        ((session.logging settings files).tell (.refused request .internal))

/-- What escapes the load for a root are the faults that are not reported. -/
theorem escapes_loadedFor_iff :
    Escapes (loadedFor source files root options) ↔ Unreported source files root options := by
  rw [loadedFor, escapes_bind_iff, Settings.editorOverrides_eq, FlatName.escapes_sections_iff,
    ← Settings.editorOverrides_eq]
  simp only [Settings.escapes_load_iff]
  constructor
  · rintro (overlooked | ⟨overrides, taken, overlooked⟩)
    · exact .options overlooked
    · exact .settings taken overlooked
  · rintro (overlooked | ⟨taken, overlooked⟩)
    · exact .inl overlooked
    · exact .inr ⟨_, taken, overlooked⟩

/-- A failed load reports a failure of the configuration. -/
theorem config_of_loadedFor {cause : Failure}
    (failed : loadedFor source files root options = .error (.failure cause)) :
    cause.kind.area = .config := by
  have overrides : Settings.ConcernsConfig (Settings.editorOverrides options) := by
    rw [Settings.editorOverrides_eq]
    exact .flat _ _
  exact overrides.bind (fun _ => .load) cause failed

/-- The settings of a session are what was loaded, or the defaults with a message for a report. -/
theorem settingsFor_eq : settingsFor source files root options =
    match loadedFor source files root options with
    | .ok settings => .ok (settings, [])
    | .error (.failure cause) =>
      .ok (default, ["Invalid umple-lsp configuration: " ++ cause.message])
    | .error fault => .error fault := rfl

/-- Without a fault that is not reported there are settings. -/
theorem settingsFor_of_reported (reported : ¬ Unreported source files root options) :
    ∃ settings warnings, settingsFor source files root options = .ok (settings, warnings) ∧
      Configures source files root options settings warnings := by
  rw [← escapes_loadedFor_iff, not_escapes_iff] at reported
  rw [settingsFor_eq]
  rcases reported with ⟨settings, loaded⟩ | ⟨cause, failed⟩
  · rw [loaded]
    exact ⟨settings, [], rfl, .loaded loaded⟩
  · rw [failed]
    exact ⟨default, _, rfl, .reported failed (config_of_loadedFor failed)⟩

/-- A fault that is not reported ends the request for the settings. -/
theorem settingsFor_of_unreported (unreported : Unreported source files root options) :
    ∃ fault, settingsFor source files root options = .error fault := by
  obtain ⟨fault, failed, escapes⟩ := escapes_loadedFor_iff.mpr unreported
  rw [settingsFor_eq, failed]
  cases fault with
  | failure cause => exact absurd trivial escapes
  | _ => exact ⟨_, rfl⟩

end

/-- What the editor is told of an attempt to set a session up. -/
private theorem setsUp_tell [Host] (settings : Settings) (request : Value) (session : Session) :
    SetsUp source settings request session ((setUp source settings session).1.tell
      (match (setUp source settings session).2 with
        | .ok _ => .begun request
        | .error _ => .refused request .internal)) := by
  unfold setUp
  cases opening : Log.openFiles settings.logging session.bench.workspace.files with
  | mk opened files =>
      cases opened with
      | error fault => exact .unopened opening
      | ok =>
          cases loading : Grammar.loadIfAvailable source.supply settings.grammar with
          | error message => exact .broken opening loading
          | ok grammar => exact .begun opening loading

/-- A look at the bench yields it. -/
private theorem yields_look (task : TaskId)
    (tasks : Agenda Session (Except ValidationFault ValidatorOutput)) :
    (part.look : SessionAct Workbench).Yields task tasks tasks.state.bench tasks :=
  .bind .look (.pure _)

/-- A start with settings sets the session up, with all its warnings, and tells the editor of the
outcome. -/
theorem start_of_settings [Host] {tasks : Agenda Session (Except ValidationFault ValidatorOutput)}
    {settings : Settings} {warnings : List String}
    (settled : settingsFor source tasks.state.bench.workspace.files root options =
      .ok (settings, warnings)) (request : Value) (task : TaskId) :
    ∃ after, SetsUp source settings request (tasks.state.withhold warnings) after ∧
      (start source request root options).Yields task tasks () { tasks with state := after } := by
  have settles : SetsUp source settings request _ _ :=
    setsUp_tell settings request (tasks.state.withhold warnings)
  have steps : (Act.step fun session => setUp source settings (session.withhold warnings) :
      SessionAct (Except SetUpFault Unit)).Yields task tasks
        (setUp source settings (tasks.state.withhold warnings)).2
        { tasks with state := (setUp source settings (tasks.state.withhold warnings)).1 } := .step _
  refine ⟨_, settles, .bind (yields_look task tasks) ?_⟩
  rw [settled]
  refine .bind steps ?_
  cases (setUp source settings (tasks.state.withhold warnings)).2 with
  | ok => exact .change _
  | error fault => exact .change _

/-- A start without settings changes nothing, and the editor is told that it failed. -/
theorem start_of_fault [Host] {tasks : Agenda Session (Except ValidationFault ValidatorOutput)}
    {fault : LoadFault}
    (failed : settingsFor source tasks.state.bench.workspace.files root options = .error fault)
    (request : Value) (task : TaskId) :
    (start source request root options).Yields task tasks ()
      { tasks with state := tasks.state.tell (.refused request .internal) } := by
  refine .bind (yields_look task tasks) ?_
  rw [failed]
  exact .change _

/-- **A bad configuration is reported unless it is overlooked.**  The options of an editor and the
flat names of the environment give sections or a report, and loading gives settings or a report,
exactly where none of the faults that are not reported comes first.  A session is then set up by the
settings or by the defaults; that fails where the log cannot be opened or the source of the grammar
breaks.  Otherwise the start fails and leaves the session as it was. -/
theorem answered_iff_not_overlooked [Host] (source : SessionSource) (session : Session)
    (request options : Value) (root : Option Path) (files : FileStore) (overrides : Entries) :
    (Answered FlatName.Tidy (Settings.editorOverrides options) ↔
      ¬ FlatName.Overlooked options.asEntries FlatName.editor) ∧
    (Answered FlatName.Tidy ((FlatName.sections (FlatName.texts source.environment)
        FlatName.environment).mapError .ofFlat) ↔
      ¬ FlatName.TimeoutOverlooked source.environment) ∧
    (Answered (fun _ => True) (Settings.load files source.environment
        (root.getD Host.workingDirectory) overrides) ↔
      ¬ Settings.Overlooked files source.environment (root.getD Host.workingDirectory) overrides) ∧
    (start source request root options).Leads session fun _ after =>
      (¬ Unreported source session.bench.workspace.files root options → ∃ settings warnings,
        Configures source session.bench.workspace.files root options settings warnings ∧
          SetsUp source settings request (session.withhold warnings) after) ∧
      (Unreported source session.bench.workspace.files root options →
        after = session.tell (.refused request .internal)) := by
  refine ⟨?_, ?_, ?_, ?_⟩
  · rw [Settings.editorOverrides_eq]
    exact FlatName.answered_sections_iff (by decide)
  · rw [← FlatName.overlooked_environment_iff]
    exact FlatName.answered_sections_iff (by decide)
  · rw [← Settings.escapes_load_iff]
    exact answered_iff (fun _ _ => trivial) .load
  · by_cases unreported : Unreported source session.bench.workspace.files root options
    · obtain ⟨fault, failed⟩ := settingsFor_of_unreported unreported
      refine .of_yields fun task tasks same => ?_
      subst same
      refine ⟨(), _, ?_, start_of_fault failed request task⟩
      exact ⟨fun reported => absurd unreported reported, fun _ => rfl⟩
    · obtain ⟨settings, warnings, settled, configures⟩ := settingsFor_of_reported unreported
      refine .of_yields fun task tasks same => ?_
      subst same
      obtain ⟨after, setsUp, yields⟩ := start_of_settings settled request task
      refine ⟨(), _, ?_, yields⟩
      exact ⟨fun _ => ⟨settings, warnings, configures, setsUp⟩,
        fun unreported' => absurd unreported' unreported⟩

end Session

end ModelAssist
