import ModelAssist.Proofs.Config.Broken
import ModelAssist.Proofs.Config.Report

/-!
# Which bad settings are overlooked

Loading ends with settings or with a report of what is wrong with the configuration, unless the
sources of the settings have one of the faults that are not reported
(`Settings.escapes_load_iff`).  The sources are looked at one after the other, and the first fault
counts, be it reported or not.
-/

namespace ModelAssist

/-- The names of merged entries are those of both. -/
theorem Entries.mem_keys_over {lower upper : Entries} {key : Key} :
    key ∈ keys (Entries.over lower upper) ↔ key ∈ lower.keys ∨ key ∈ upper.keys := by
  induction upper generalizing lower with
  | nil =>
      rw [Entries.over]
      simp [keys]
  | cons entry rest ih =>
      obtain ⟨first, value⟩ := entry
      rw [Entries.over, ih, mem_keys_insert]
      simp only [keys, List.map_cons, List.mem_cons]
      tauto

namespace Settings

/-- Holds if all sections have texts as names. -/
def AllNamed (sections : Entries) : Prop :=
  ∀ key ∈ sections.keys, isNamed key

/-- Nothing is nameless where nothing is. -/
theorem allNamed_nil : AllNamed [] :=
  List.forall_mem_nil _

/-- The check for names that are no texts finds all that are none. -/
theorem allNamed_iff {sections : Entries} :
    (sections.all fun (key, _) => isNamed key) ↔ AllNamed sections := by
  simp [AllNamed, Entries.keys]

/-- Inserting under a text keeps all names texts. -/
theorem AllNamed.insert {sections : Entries} (named : AllNamed sections) (name : String)
    (value : Value) : AllNamed (sections.insert (.text name) value) := by
  intro key member
  rcases Entries.mem_keys_insert.mp member with rfl | member
  · rfl
  · exact named key member

/-- Merged sections are all named if both are. -/
theorem allNamed_over_iff {lower upper : Entries} :
    AllNamed (Entries.over lower upper) ↔ AllNamed lower ∧ AllNamed upper := by
  simp only [AllNamed, Entries.mem_keys_over, or_imp, forall_and]

/-- What a fold keeps in each step holds at its end. -/
theorem allNamed_of_foldlM {Fault Name : Type} (step : Entries → Name → Except Fault Entries)
    (kept : ∀ {before name after}, step before name = .ok after → AllNamed before → AllNamed after)
    {names : List Name} {before after : Entries} (ended : names.foldlM step before = .ok after)
    (named : AllNamed before) : AllNamed after := by
  induction names generalizing before with
  | nil =>
      cases ended
      exact named
  | cons name rest ih =>
      rw [List.foldlM_cons] at ended
      obtain ⟨middle, first, ended⟩ := exists_of_bind_eq_ok ended
      exact ih ended (kept first named)

section

variable [Host]

/-- Flat names give named sections only. -/
theorem allNamed_flat {values after : Entries} {names : List FlatName}
    (taken : FlatName.sections values names = .ok after) : AllNamed after := by
  refine allNamed_of_foldlM (FlatName.take values) ?_ taken allNamed_nil
  intro before name after taken named
  rw [FlatName.take_eq_ok taken]
  split
  · exact named
  · exact named.insert _ _

/-- Variables give named sections only. -/
theorem allNamed_grouped {environment : List (String × String)} {after : Entries}
    (taken : Variable.sections environment = .ok after) : AllNamed after := by
  refine allNamed_of_foldlM (Variable.take environment) ?_ taken allNamed_nil
  intro before group after taken named
  unfold Variable.take at taken
  split at taken
  · cases taken
  · cases taken
    exact named
  · cases taken
    exact named.insert _ _

variable {files : FileStore} {environment : List (String × String)} {root : Path}
  {overrides : Entries}

/-- Holds if the first fault of the sources of settings is one that is not reported. -/
inductive Overlooked (files : FileStore) (environment : List (String × String)) (root : Path)
    (overrides : Entries) : Prop
  | global (overlooked : DocumentOverlooked files globalPath)
  | workspace {global : Entries} (globalRead : document files globalPath = .ok global)
      (overlooked : DocumentOverlooked files (root.child workspaceName))
  | timeout {below : Entries} (documents : Settings.documents files root = .ok below)
      (overlooked : FlatName.TimeoutOverlooked environment)
  | garbled {below flat : Entries} (documents : Settings.documents files root = .ok below)
      (flatTaken : FlatName.sections (FlatName.texts environment) FlatName.environment = .ok flat)
      (garbled : Variable.Garbled environment)
  /-- A document or what is handed over has a section whose name is no text. -/
  | nameless {global workspace sections : Entries}
      (globalRead : document files globalPath = .ok global)
      (workspaceRead : document files (root.child workspaceName) = .ok workspace)
      (merged : Settings.merged files environment root overrides = .ok sections)
      (nameless : ¬ (AllNamed global ∧ AllNamed workspace ∧ AllNamed overrides))
  | home {sections : Entries} {outputs : List Value} {output : Value}
      (merged : Settings.merged files environment root overrides = .ok sections)
      (named : AllNamed sections)
      (given : sections.at? "logging" "outputs" = some (.list outputs)) (member : output ∈ outputs)
      (noHome : LogOutput.HasNoHome output)
  /-- The first setting that is not admitted cannot be shown in a report. -/
  | unshown {sections : Entries} {complaint : Complaint} {fault : DisplayFault}
      (merged : Settings.merged files environment root overrides = .ok sections)
      (named : AllNamed sections)
      (complained : (read sections false).outcome = .error (.notAdmitted complaint))
      (unshown : complaint.given.shown = .error fault)

/-- Reading the documents fails unreported if that of all workspaces is overlooked, or that of this
one after the other was read. -/
theorem escapes_documents_iff : Escapes (documents files root) ↔
    DocumentOverlooked files globalPath ∨ ∃ global, document files globalPath = .ok global ∧
      DocumentOverlooked files (root.child workspaceName) := by
  rw [documents, escapes_bind_iff, escapes_document_iff]
  simp only [escapes_bind_iff, escapes_document_iff, not_escapes_ok, and_false, exists_false,
    or_false]

/-- Merging fails unreported in the documents, or in the flat names, or in the variables, whichever
comes first. -/
theorem escapes_merged_iff : Escapes (merged files environment root overrides) ↔
    Escapes (documents files root) ∨ ∃ below, documents files root = .ok below ∧
      (FlatName.TimeoutOverlooked environment ∨ ∃ flat,
        FlatName.sections (FlatName.texts environment) FlatName.environment = .ok flat ∧
          Variable.Garbled environment) := by
  have grouped : Escapes ((Variable.sections environment).mapError fun fault =>
      .variable fault.1 fault.2) ↔ Variable.Garbled environment := by
    rw [← Variable.sections_eq_error_iff]
    cases Variable.sections environment <;> simp [Except.mapError]
  have flat : Escapes ((FlatName.sections (FlatName.texts environment)
      FlatName.environment).mapError .ofFlat) ↔ FlatName.TimeoutOverlooked environment :=
    FlatName.escapes_sections_iff.trans FlatName.overlooked_environment_iff
  rw [merged, escapes_bind_iff]
  simp only [escapes_bind_iff, not_escapes_ok, and_false, exists_false, or_false, grouped]
  rw [FlatName.texts] at flat ⊢
  simp only [flat, mapError_eq_ok_iff]

/-- The documents were read where the sections could be merged. -/
theorem exists_documents_of_merged {sections : Entries}
    (merged : Settings.merged files environment root overrides = .ok sections) :
    ∃ global workspace, document files globalPath = .ok global ∧
      document files (root.child workspaceName) = .ok workspace := by
  rw [Settings.merged] at merged
  obtain ⟨below, read, -⟩ := exists_of_bind_eq_ok merged
  rw [documents] at read
  obtain ⟨global, globalRead, read⟩ := exists_of_bind_eq_ok read
  obtain ⟨workspace, workspaceRead, -⟩ := exists_of_bind_eq_ok read
  exact ⟨global, workspace, globalRead, workspaceRead⟩

/-- Only documents and what is handed over can have names that are no texts. -/
theorem allNamed_merged_iff {global workspace sections : Entries}
    (merged : Settings.merged files environment root overrides = .ok sections)
    (globalRead : document files globalPath = .ok global)
    (workspaceRead : document files (root.child workspaceName) = .ok workspace) :
    AllNamed sections ↔ AllNamed global ∧ AllNamed workspace ∧ AllNamed overrides := by
  obtain ⟨flat, grouped, flatTaken, groupedTaken, rfl⟩ :=
    merged_eq_ok merged globalRead workspaceRead
  have flatNamed := allNamed_flat flatTaken
  have groupedNamed := allNamed_grouped groupedTaken
  simp only [allNamed_over_iff]
  tauto

/-- What loading makes of the merged sections. -/
def ofSections (sections : Entries) : Except LoadFault Settings :=
  if !sections.all fun (key, _) => isNamed key then .error .nameless
  else
    match (read sections false).outcome with
    | .ok settings => .ok settings
    | .error (.home fault) => .error (.home fault)
    | .error (.notAdmitted complaint) =>
      match complaint.given.shown with
      | .ok text => .error (.failure (.badSetting complaint.placeText text complaint.reason))
      | .error fault => .error (.unshown fault)

end

/-- The outcome of a reading is a missing home if the reading breaks off. -/
theorem home_of_outcome_iff {Read : Type} {reading : Reading Read} :
    (∃ fault, reading.outcome = .error (.home fault)) ↔ ∃ fault, reading.run [] = .error fault := by
  unfold Reading.outcome
  split <;> simp_all

/-- Reading merged sections fails unreported for a name that is no text, for a home that cannot be
found, or for a setting that cannot be shown. -/
theorem escapes_ofSections_iff [Host] {sections : Entries} : Escapes (ofSections sections) ↔
    ¬ AllNamed sections ∨ AllNamed sections ∧
      ((∃ outputs, sections.at? "logging" "outputs" = some (.list outputs) ∧
          ∃ output ∈ outputs, LogOutput.HasNoHome output) ∨
        ∃ complaint, (read sections false).outcome = .error (.notAdmitted complaint) ∧
          ∃ fault, complaint.given.shown = .error fault) := by
  rw [← breaksOffIf_read sections false [], ← home_of_outcome_iff, ← allNamed_iff, ofSections]
  by_cases named : sections.all fun (key, _) => isNamed key
  · simp only [named, Bool.not_true, Bool.false_eq_true, if_false, not_true_eq_false, false_or,
      true_and]
    cases outcome : (read sections false).outcome with
    | ok settings => simp
    | error fault =>
        cases fault with
        | home fault => simp
        | notAdmitted complaint =>
            cases shown : complaint.given.shown <;> simp [shown]
  · simp [named]

/-- **Loading ends without settings and without a report exactly if a bad setting is
overlooked.** -/
theorem escapes_load_iff [Host] : Escapes (load files environment root overrides) ↔
    Overlooked files environment root overrides := by
  have steps : load files environment root overrides =
      merged files environment root overrides >>= ofSections := rfl
  -- The sources in the order in which they are looked at: each case below is one of them.
  rw [steps, escapes_bind_iff, escapes_merged_iff, escapes_documents_iff]
  simp only [escapes_ofSections_iff]
  constructor
  · rintro (((overlooked | ⟨global, globalRead, overlooked⟩) |
      ⟨below, documents, timeout | ⟨flat, flatTaken, garbled⟩⟩) |
      ⟨sections, merged, nameless | ⟨named, unread⟩⟩)
    · exact .global overlooked
    · exact .workspace globalRead overlooked
    · exact .timeout documents timeout
    · exact .garbled documents flatTaken garbled
    · obtain ⟨global, workspace, globalRead, workspaceRead⟩ := exists_documents_of_merged merged
      refine .nameless globalRead workspaceRead merged ?_
      rwa [allNamed_merged_iff merged globalRead workspaceRead] at nameless
    · rcases unread with ⟨outputs, given, output, member, noHome⟩ | ⟨_, complained, _, unshown⟩
      · exact .home merged named given member noHome
      · exact .unshown merged named complained unshown
  · intro overlooked
    cases overlooked with
    | global overlooked => exact .inl (.inl (.inl overlooked))
    | workspace globalRead overlooked => exact .inl (.inl (.inr ⟨_, globalRead, overlooked⟩))
    | timeout documents timeout => exact .inl (.inr ⟨_, documents, .inl timeout⟩)
    | garbled documents flatTaken garbled =>
        exact .inl (.inr ⟨_, documents, .inr ⟨_, flatTaken, garbled⟩⟩)
    | nameless globalRead workspaceRead merged nameless =>
        rw [← allNamed_merged_iff merged globalRead workspaceRead] at nameless
        exact .inr ⟨_, merged, .inl nameless⟩
    | home merged named given member noHome =>
        exact .inr ⟨_, merged, .inr ⟨named, .inl ⟨_, given, _, member, noHome⟩⟩⟩
    | unshown merged named complained unshown =>
        exact .inr ⟨_, merged, .inr ⟨named, .inr ⟨_, complained, _, unshown⟩⟩⟩

open scoped Trial in
-- The variable of a section has to be JSON.
example : (match load ⟨∅, .allowed⟩ [("UMPLE_LSP__VALIDATOR", "x")] ⟨.root, ["w"]⟩ [] with
    | .error (.variable group .notJson) => decide (group = "validator")
    | _ => false) = true := by
  decide +kernel

/-! ## Failures -/

/-- Holds of attempts whose failures, if they have any, are of the configuration. -/
def ConcernsConfig {Result : Type} (outcome : Except LoadFault Result) : Prop :=
  ∀ cause, outcome = .error (.failure cause) → cause.kind.area = .config

namespace ConcernsConfig

theorem ok {Result : Type} (result : Result) : ConcernsConfig (.ok result) :=
  nofun

theorem bind {Result Other : Type} {outcome : Except LoadFault Result}
    {next : Result → Except LoadFault Other} (first : ConcernsConfig outcome)
    (second : ∀ result, ConcernsConfig (next result)) : ConcernsConfig (outcome >>= next) := by
  cases outcome with
  | ok result => exact second result
  | error fault =>
      rintro cause ⟨⟩
      exact first cause rfl

variable [Host]

theorem document (path : Path) : ConcernsConfig (Settings.document files path) := by
  intro cause failed
  unfold Settings.document at failed
  grind [Failure.kind, FailureKind.area]

theorem take (values sections : Entries) (name : FlatName) :
    ConcernsConfig ((FlatName.take values sections name).mapError .ofFlat) := by
  intro cause failed
  unfold FlatName.take FlatFault.report at failed
  grind [Except.mapError, LoadFault.ofFlat, Failure.kind, FailureKind.area]

theorem flat (values : Entries) (names : List FlatName) :
    ConcernsConfig ((FlatName.sections values names).mapError .ofFlat) := by
  have loop : ∀ sections,
      ConcernsConfig ((names.foldlM (FlatName.take values) sections).mapError .ofFlat) := by
    induction names with
    | nil => exact fun _ => .ok _
    | cons name rest ih =>
        intro sections
        rw [FlatName.mapError_foldlM_take_cons]
        exact (take values sections name).bind ih
  exact loop []

theorem ofSections (sections : Entries) : ConcernsConfig (Settings.ofSections sections) := by
  intro cause failed
  unfold Settings.ofSections at failed
  grind [Failure.kind, FailureKind.area]

theorem grouped (environment : List (String × String)) :
    ConcernsConfig ((Variable.sections environment).mapError fun fault =>
      .variable fault.1 fault.2) := by
  cases Variable.sections environment <;> nofun

theorem load : ConcernsConfig (Settings.load files environment root overrides) := by
  refine ConcernsConfig.bind ?_ ofSections
  have documents : ConcernsConfig (documents files root) :=
    (document globalPath).bind fun _ => (document _).bind fun _ => .ok _
  refine documents.bind fun _ => ?_
  exact (flat _ _).bind fun _ => (grouped environment).bind fun _ => .ok _

end ConcernsConfig

end Settings

end ModelAssist
