import ModelAssist.Proofs.Config.Document
import ModelAssist.Proofs.Config.FlatName
import ModelAssist.Proofs.Config.Reading
import ModelAssist.Proofs.Config.Variable
import ModelAssist.Proofs.FileStore
import ModelAssist.Proofs.Text.Ascii

/-!
# Which source a setting comes from

Every setting holds the value of the strongest source that has it, and its default if none has it
(`Settings.load_holds`).  A source that sets one setting of a section hides no other one.
-/

namespace ModelAssist

/-- What the variable with the flat name of a setting says of it; an empty text is absent. -/
def FlatName.setting? [Host] (environment : List (String × String)) (group key : String) :
    Option Value :=
  (FlatName.environment.find? fun name => name.target = (group, key)).bind fun name =>
    match (environment.reverse.find? fun entry => entry.1 = name.name).map (·.2) with
    | none => none
    | some "" => none
    | some text => (name.form.convert (.text text)).toOption

/-- The last entry of a name in the environment answers for it. -/
theorem field?_ofPairs_environment (environment : List (String × String)) (name : String) :
    Entries.field? (Entries.ofPairs
        (environment.map fun (name, text) => (Key.text name, Value.text text))) name =
      ((environment.reverse.find? fun entry => entry.1 = name).map (·.2)).map .text := by
  rw [Entries.field?, Entries.get?_ofPairs, Entries.get?, ← List.map_reverse, List.find?_map,
    Option.map_map, Option.map_map]
  have agree : (fun entry : Key × Value => decide (entry.1 = .text name)) ∘
      (fun (name, text) => (Key.text name, Value.text text)) =
        fun entry : String × String => decide (entry.1 = name) := by
    funext entry
    simp
  rw [agree]
  rfl

/-- The flat names of the environment say of a setting what its variable says. -/
theorem FlatName.said?_environment [Host] (environment : List (String × String))
    (group key : String) :
    said? (Entries.ofPairs (environment.map fun (name, text) => (.text name, .text text)))
      FlatName.environment group key = setting? environment group key := by
  rw [said?, setting?]
  congr 1
  funext name
  rw [value?, field?_ofPairs_environment]
  cases (environment.reverse.find? fun entry => entry.1 = name.name).map (·.2) with
  | none => rfl
  | some text => by_cases empty : text = "" <;> simp [empty]

namespace Settings

section

variable [Host]

/-- The variables know the sections and their settings. -/
theorem known_settings {part : Section} (member : part ∈ all) :
    part.name ∈ sectionNames ∧ ∀ setting ∈ part.all, setting.key ∈ Variable.keysOf part.name := by
  simp only [all, List.mem_cons, List.not_mem_nil, or_false] at member
  rcases member with rfl | rfl | rfl | rfl <;>
    simp [sectionNames, Variable.keysOf, LoggingSettings.all, GrammarSettings.all,
      ValidatorSettings.all, ValidationSettings.all]

/-- What the sources of settings have of a setting, the strongest source that has it first. -/
def given? (overrides workspace global : Entries) (environment : List (String × String))
    (group key : String) : Option Value :=
  overrides.at? group key <|> Variable.setting? environment group key <|>
    FlatName.setting? environment group key <|> workspace.at? group key <|> global.at? group key

variable {files : FileStore} {environment : List (String × String)} {root : Path}
  {overrides global workspace sections : Entries} {settings : Settings} {part : Section}

/-- Of two documents that were read, that of the workspace lies over that of all workspaces. -/
theorem documents_eq_ok (globalRead : document files globalPath = .ok global)
    (workspaceRead : document files (root.child workspaceName) = .ok workspace) :
    documents files root = .ok (Entries.over global workspace) := by
  rw [documents, globalRead, workspaceRead]
  rfl

/-- The merged sections are those of the documents below the flat names, the variables and what is
handed over. -/
theorem merged_eq_ok
    (merged : Settings.merged files environment root overrides = .ok sections)
    (globalRead : document files globalPath = .ok global)
    (workspaceRead : document files (root.child workspaceName) = .ok workspace) :
    ∃ flat grouped,
      FlatName.sections (Entries.ofPairs
        (environment.map fun (name, text) => (.text name, .text text))) FlatName.environment =
          .ok flat ∧
      Variable.sections environment = .ok grouped ∧
      sections = Entries.over (Entries.over global workspace)
        (Entries.over flat (Entries.over grouped overrides)) := by
  rw [Settings.merged, documents_eq_ok globalRead workspaceRead] at merged
  obtain ⟨_, ⟨⟩, merged⟩ := exists_of_bind_eq_ok merged
  obtain ⟨flat, flatTaken, merged⟩ := exists_of_bind_eq_ok merged
  obtain ⟨grouped, groupedTaken, merged⟩ := exists_of_bind_eq_ok merged
  exact ⟨flat, grouped, eq_ok_of_mapError_eq_ok flatTaken, eq_ok_of_mapError_eq_ok groupedTaken,
    (Except.ok.inj merged).symm⟩

/-- The merged sections have of a setting what the strongest source has of it. -/
theorem at?_of_merged
    (merged : Settings.merged files environment root overrides = .ok sections)
    (globalRead : document files globalPath = .ok global)
    (workspaceRead : document files (root.child workspaceName) = .ok workspace)
    (member : part ∈ all) (workspaceSection : workspace.HasSection part.name)
    (orderly : Variable.Orderly environment part.name) (tidy : (Value.record overrides).Tidy)
    (mergedSection : sections.HasSection part.name)
    {setting : Setting part.Held} (settingMember : setting ∈ part.all)
    (simple : ∀ value, sections.at? part.name setting.key = some value → value.IsSimple) :
    sections.at? part.name setting.key =
      given? overrides workspace global environment part.name setting.key := by
  obtain ⟨knownGroup, known⟩ := known_settings member
  have knownKey := known setting settingMember
  obtain ⟨flat, grouped, flatTaken, groupedTaken, rfl⟩ :=
    merged_eq_ok merged globalRead workspaceRead
  have workspaceTidy := tidy_document workspaceRead
  obtain ⟨flatTidy, flatSaid⟩ : FlatName.Tidy flat ∧ flat.at? part.name setting.key = _ :=
    FlatName.of_sections (by decide) flatTaken
  have groupedDistinct := (Variable.fields_of_sections groupedTaken).1
  -- From the strongest sources to all of them: the keys of a section stay distinct.
  have directDistinct := Entries.nodup_keys_over groupedDistinct overrides
  have directDiffer := (Variable.distinctAt_of_sections groupedTaken knownGroup).over
    tidy.keys_nodup (tidy.distinctAt part.name)
  have upperDistinct := Entries.nodup_keys_over flatTidy.distinct (Entries.over grouped overrides)
  have upperDiffer := (flatTidy.differ part.name).over directDistinct directDiffer
  -- From all sources to the strongest ones: what lies on top has the section as a record.
  have upperSection := mergedSection.of_over upperDistinct
  have directSection := upperSection.of_over directDistinct
  have documentsSaid (simple : ∀ value,
      Entries.at? (Entries.over global workspace) part.name setting.key = some value →
        value.IsSimple) :=
    Entries.at?_over workspaceTidy.keys_nodup workspaceSection (workspaceTidy.distinctAt part.name)
      simple
  have directSaid (simple : ∀ value,
      Entries.at? (Entries.over grouped overrides) part.name setting.key = some value →
        value.IsSimple) :=
    Entries.at?_over_of tidy.keys_nodup directSection (tidy.distinctAt part.name) simple
      (fun _ => rfl) (Variable.at?_of_sections groupedTaken knownGroup knownKey orderly)
  have upperSaid (simple : ∀ value,
      Entries.at? (Entries.over flat (Entries.over grouped overrides)) part.name setting.key =
        some value → value.IsSimple) :=
    Entries.at?_over_of directDistinct upperSection directDiffer simple directSaid
      (fun _ => flatSaid.trans (FlatName.said?_environment environment _ _))
  have said :=
    Entries.at?_over_of upperDistinct mergedSection upperDiffer simple upperSaid documentsSaid
  rw [said, given?]
  simp only [Option.orElse_eq_orElse, Option.orElse_eq_or, Option.or_assoc]

end

/-! ## Documents in files -/

/-- The sections that a text writes. -/
def sectionsOf (text : String) : Entries :=
  match Yaml.read text.toList with
  | .ok (.record entries) => entries
  | _ => []

/-- The sections of a text are what it reads as, if that is a record. -/
theorem read_eq_sectionsOf {text : String}
    (isRecord : (Yaml.read text.toList).toOption.any fun value => value matches .record _) :
    Yaml.read text.toList = .ok (.record (sectionsOf text)) := by
  unfold sectionsOf
  split
  · next parsed => exact parsed
  · next other =>
      cases parsed : Yaml.read text.toList with
      | error fault =>
          rw [parsed] at isRecord
          cases isRecord
      | ok value =>
          rw [parsed] at isRecord
          cases value with
          | record entries => exact (other entries parsed).elim
          | _ => cases isRecord

/-- The document in a file with an ASCII text that is not too deep, where no links are on the
way. -/
theorem document_of_text [Host] {path : Path} {text : String}
    (unlinked : ∀ above, files.Unlinked above)
    (there : files.entry? path = some (.file (Text.utf8 text.toList)))
    (ascii : ∀ byte ∈ Text.utf8 text.toList, byte < 0x80)
    (same : FileStore.unifyLineEnds
      ((Text.utf8 text.toList).map fun byte => Char.ofNat byte.toNat) = text.toList)
    (shallow : Host.tooDeep .yaml text.toList = false)
    (isRecord : (Yaml.read text.toList).toOption.any fun value => value matches .record _) :
    document files path = .ok (sectionsOf text) := by
  have found : files.lookup? path = some (.file (Text.utf8 text.toList)) := by
    rw [FileStore.lookup?, FileStore.resolve_of_linkless unlinked, there]
  have content : files.text path = .ok text.toList := by
    rw [FileStore.text, FileStore.read, found]
    simp only [Text.damage?, Text.damageFrom?_of_ascii 0 ascii, Text.decodeMarking_of_ascii ascii,
      same]
  rw [document, content]
  simp only [shallow, read_eq_sectionsOf isRecord, Bool.false_eq_true, if_false]

/-- The text of a document for all workspaces. -/
def farText : String := "validator:\n  host: far\n  port: 6001\n"

/-- The text of the document of one workspace. -/
def nearText : String := "validator:\n  port: 6002\n"

section

open scoped Trial

/-- A home directory and a workspace with a document each. -/
def couple : FileStore where
  entries := ⟨[
    (globalPath, .file (Text.utf8 farText.toList)),
    (Path.child ⟨.root, ["w"]⟩ workspaceName, .file (Text.utf8 nearText.toList))]⟩
  links := .allowed

/-- No links are among the files of the example. -/
theorem unlinked_couple (above : Path) : couple.Unlinked above := by
  intro target linked
  rcases List.mem_cons.mp (OrderedMap.mem_entries_of_get? linked) with same | member
  · cases (Prod.mk.inj same).2
  · cases (Prod.mk.inj (List.mem_singleton.mp member)).2

/-- The document for all workspaces of the example can be read. -/
theorem document_globalPath : document couple globalPath = .ok (sectionsOf farText) :=
  document_of_text unlinked_couple (by rfl) (by decide +kernel) (by decide +kernel) rfl
    (by decide +kernel)

/-- The document for the workspace of the example can be read. -/
theorem document_workspace :
    document couple (Path.child ⟨.root, ["w"]⟩ workspaceName) = .ok (sectionsOf nearText) :=
  document_of_text unlinked_couple (by rfl) (by decide +kernel) (by decide +kernel) rfl
    (by decide +kernel)

end

/-- Variables of a flat name, of a section and of a setting. -/
def coupleVariables : List (String × String) := [
  ("UMPLESYNC_PORT", "6003"),
  ("UMPLE_LSP__VALIDATOR", "\x7b\"port\": 6004\x7d"),
  ("umple_lsp__validator__Port", "6005")]

/-- What is handed over directly. -/
def coupleOverrides : Entries := [(.text "validator", .record [(.text "java", .text "java17")])]

section

open scoped Trial

/-- The settings of the example can be loaded. -/
theorem load_couple :
    ∃ settings, load couple coupleVariables ⟨.root, ["w"]⟩ coupleOverrides = .ok settings := by
  have succeeds : (load couple coupleVariables ⟨.root, ["w"]⟩ coupleOverrides).toOption.isSome := by
    rw [load, merged, documents_eq_ok document_globalPath document_workspace]
    decide +kernel
  generalize load couple coupleVariables ⟨.root, ["w"]⟩ coupleOverrides = result at succeeds ⊢
  cases result with
  | error fault => cases succeeds
  | ok settings => exact ⟨settings, rfl⟩

end

/-! ## Loading -/

/-- Settings are read from the merged sections. -/
theorem exists_merged_of_load [Host]
    (loaded : load files environment root overrides = .ok settings) :
    ∃ sections, merged files environment root overrides = .ok sections ∧
      (read sections false).outcome = .ok settings := by
  rw [load] at loaded
  cases merged : merged files environment root overrides with
  | error fault =>
      rw [merged] at loaded
      cases loaded
  | ok sections =>
      rw [merged] at loaded
      simp only [bind, Except.bind] at loaded
      split at loaded
      · cases loaded
      · split at loaded
        · next outcome =>
            cases loaded
            exact ⟨sections, rfl, outcome⟩
        · cases loaded
        · split at loaded <;> cases loaded

/-- **Every setting of settings that are loaded holds what the strongest source of it stands for,
and its default if no source has it.** -/
theorem load_holds [Host] (loaded : load files environment root overrides = .ok settings)
    (globalRead : document files globalPath = .ok global)
    (workspaceRead : document files (root.child workspaceName) = .ok workspace)
    (member : part ∈ all) (workspaceSection : workspace.HasSection part.name)
    (orderly : Variable.Orderly environment part.name) (tidy : (Value.record overrides).Tidy)
    {setting : Setting part.Held} (settingMember : setting ∈ part.all) :
    setting.Holds (part.held default)
      (given? overrides workspace global environment part.name setting.key)
      (part.held settings) := by
  obtain ⟨sections, merged, readOk⟩ := exists_merged_of_load loaded
  have reflects := reflects_of_read readOk member
  have holds := reflects.holds settingMember
  have simple : ∀ value, sections.at? part.name setting.key = some value → value.IsSimple := by
    rintro _ found inner rfl
    rw [found] at holds
    exact accept_record_ne member settingMember inner _ (Takes.accept_eq_ok holds)
  rw [at?_of_merged merged globalRead workspaceRead member workspaceSection orderly tidy
    reflects.hasSection settingMember simple] at holds
  exact holds

section

open scoped Trial

/-- The port has variables of three kinds here and comes from its own one; the host beside it comes
from the document for all workspaces. -/
theorem load_holds_couple :
    ∃ settings, load couple coupleVariables ⟨.root, ["w"]⟩ coupleOverrides = .ok settings ∧
      settings.validator.port = 6005 ∧ settings.validator.host = "far" := by
  obtain ⟨settings, loaded⟩ := load_couple
  have tidy : (Value.record coupleOverrides).Tidy :=
    .record (by decide) (List.forall_mem_singleton.mpr
      (.record (by decide) (List.forall_mem_singleton.mpr (.scalar rfl))))
  have holds : ∀ setting ∈ ValidatorSettings.all, setting.Holds (default : Settings).validator
      (given? coupleOverrides (sectionsOf nearText) (sectionsOf farText) coupleVariables
        "validator" setting.key) settings.validator := by
    intro setting settingMember
    have member : ⟨ValidatorSettings, "validator", (·.validator), ValidatorSettings.all⟩ ∈ all :=
      .tail _ (.tail _ (.head _))
    have workspace : (sectionsOf nearText).HasSection "validator" := by decide +kernel
    have orderly : Variable.Orderly coupleVariables "validator" := by decide +kernel
    exact load_holds loaded document_globalPath document_workspace member workspace orderly tidy
      settingMember
  have port := holds ⟨Int, "port", (·.port), acceptPort⟩ (.tail _ (.tail _ (.head _)))
  have host := holds ⟨String, "host", (·.host), Coercion.text⟩ (.tail _ (.head _))
  have portGiven : ((given? coupleOverrides (sectionsOf nearText) (sectionsOf farText)
      coupleVariables "validator" "port").bind fun given => (acceptPort given).toOption) =
        some 6005 := by
    decide +kernel
  have hostGiven : ((given? coupleOverrides (sectionsOf nearText) (sectionsOf farText)
      coupleVariables "validator" "host").bind fun given => (Coercion.text given).toOption) =
        some "far" := by
    decide +kernel
  exact ⟨settings, loaded, port.eq_of_accept portGiven, host.eq_of_accept hostGiven⟩

end

/-- The sources of a setting without the variables of whole sections. -/
def ownSources? [Host] (overrides workspace global : Entries) (environment : List (String × String))
    (group key : String) : Option Value :=
  overrides.at? group key <|> Variable.own? environment group key <|>
    FlatName.setting? environment group key <|> workspace.at? group key <|> global.at? group key

/-- The port in settings without documents. -/
def loadedPort? [Host] (environment : List (String × String)) (overrides : Entries) : Option Int :=
  (load ⟨∅, .allowed⟩ environment ⟨.root, ["w"]⟩ overrides).toOption.map (·.validator.port)

/-- The port that settings without documents would have without the variables of whole sections. -/
def ownPort? [Host] (environment : List (String × String)) (overrides : Entries) : Option Int :=
  match ownSources? overrides [] [] environment "validator" "port" with
  | none => some (default : Settings).validator.port
  | some given => (acceptPort given).toOption

section

open scoped Trial

/-- **The variable of a whole section counts, too**: an object stands for settings without variables
of their own, null hides these variables, and a name in other letters can hide them as well. -/
theorem loadedPort?_ne_ownPort? :
    (loadedPort? [("UMPLE_LSP__VALIDATOR", "\x7b\"port\": 7300\x7d")] [] = some 7300 ∧
      ownPort? [("UMPLE_LSP__VALIDATOR", "\x7b\"port\": 7300\x7d")] [] = some 5555) ∧
    (loadedPort? [("UMPLE_LSP__VALIDATOR", "null"), ("UMPLE_LSP__VALIDATOR__PORT", "7300")] [] =
        some 5555 ∧
      ownPort? [("UMPLE_LSP__VALIDATOR", "null"), ("UMPLE_LSP__VALIDATOR__PORT", "7300")] [] =
        some 7300) ∧
    (loadedPort? [("UMPLE_LSP__VALIDATOR", "\x7b\"port\": 1, \"PORT\": 3\x7d"),
        ("UMPLE_LSP__VALIDATOR__PORT", "7300")] [] = some 3 ∧
      ownPort? [("UMPLE_LSP__VALIDATOR", "\x7b\"port\": 1, \"PORT\": 3\x7d"),
        ("UMPLE_LSP__VALIDATOR__PORT", "7300")] [] = some 7300) := by
  decide +kernel

end

end Settings

end ModelAssist
