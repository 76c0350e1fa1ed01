import ModelAssist.Config.Reading
import ModelAssist.Proofs.Config.Merge

/-!
# What is read from a record of sections

When no complaint is left, every setting holds what its value in the sections stands for, and its
default if the sections have no value of it (`Settings.reflects_of_read`).
-/

namespace ModelAssist

namespace Reading

variable {Read Other : Type} {reading : Reading Read} {holds : Read → Prop} {holds' : Other → Prop}

/-- Holds of the readings that drop no complaint, and that have read something with a property if
there is none at their end. -/
def Ensures (reading : Reading Read) (holds : Read → Prop) : Prop :=
  ∀ before read after, reading.run before = .ok (read, after) →
    before.length ≤ after.length ∧ (after = [] → holds read)

/-- What is read already ensures what holds of it. -/
theorem ensures_pure {read : Read} (result : holds read) : Ensures (pure read) holds := by
  rintro before _ _ ⟨⟩
  exact ⟨Nat.le_refl _, fun _ => result⟩

/-- A complaint ensures anything, as nothing is read then. -/
theorem ensures_complain {place : List String} {given : Value} {reason : String}
    {holds : Unit → Prop} : (complain place given reason).Ensures holds := by
  rintro before _ _ ⟨⟩
  rw [List.length_append]
  exact ⟨Nat.le_add_right _ _, fun none => nomatch List.append_eq_nil_iff.mp none⟩

/-- A result that was found already ensures nothing. -/
theorem ensures_lift (result : Except HomeFault Read) :
    Ensures (liftM result) (fun _ => True) := by
  intro before read after ended
  cases result with
  | error fault => cases ended
  | ok value =>
      cases ended
      exact ⟨Nat.le_refl _, fun _ => trivial⟩

/-- What the second reading ensures may depend on what the first one ensured: as no complaint is
dropped, none at the end means that there was none in between. -/
theorem Ensures.bind {next : Read → Reading Other} (first : reading.Ensures holds)
    (second : ∀ read, (next read).Ensures fun other => holds read → holds' other) :
    Ensures (reading >>= next) holds' := by
  intro before other after ended
  rw [StateT.run_bind] at ended
  cases middle : reading.run before with
  | error fault =>
      rw [middle] at ended
      cases ended
  | ok reached =>
      obtain ⟨read, between⟩ := reached
      rw [middle] at ended
      obtain ⟨kept, firstHolds⟩ := first before read between middle
      obtain ⟨keptNext, secondHolds⟩ := second read between other after ended
      refine ⟨Nat.le_trans kept keptNext, ?_⟩
      intro none
      subst none
      exact secondHolds rfl (firstHolds (List.eq_nil_of_length_eq_zero (Nat.le_zero.mp keptNext)))

/-- A complaint in place of what is read. -/
theorem ensures_refusal {place : List String} {given : Value} {reason : String} {read : Read} :
    Ensures (do complain place given reason; pure read) holds := by
  refine Ensures.bind (ensures_complain : Ensures _ fun _ => False) ?_
  intro _
  exact ensures_pure False.elim

/-- A reading ensures what follows from what it ensures. -/
theorem Ensures.mono {holds'' : Read → Prop} (ensures : reading.Ensures holds)
    (weaker : ∀ read, holds read → holds'' read) : reading.Ensures holds'' := by
  intro before read after ended
  obtain ⟨kept, result⟩ := ensures before read after ended
  exact ⟨kept, fun none => weaker read (result none)⟩

/-- The outcome of a reading is good if it neither complained nor broke off. -/
theorem outcome_eq_ok_iff {read : Read} :
    reading.outcome = .ok read ↔ reading.run [] = .ok (read, []) := by
  unfold outcome
  split <;> simp_all

/-- A reading without complaints has read its outcome. -/
theorem Ensures.outcome (ensures : reading.Ensures holds) :
    reading.Ensures fun read => reading.outcome = .ok read := by
  intro before read after ended
  obtain ⟨kept, -⟩ := ensures before read after ended
  refine ⟨kept, ?_⟩
  rintro rfl
  obtain rfl := List.eq_nil_of_length_eq_zero (Nat.le_zero.mp kept)
  exact outcome_eq_ok_iff.mpr ended

/-- What a reading ensures holds of a good outcome. -/
theorem Ensures.of_outcome {read : Read} (ensures : reading.Ensures holds)
    (ended : reading.outcome = .ok read) : holds read :=
  (ensures [] read [] (outcome_eq_ok_iff.mp ended)).2 rfl

end Reading

/-- What a setting holds where it has the given value, or none: what the value stands for, or the
fallback. -/
inductive Takes {Held : Type} (accept : Value → Except String Held) (fallback : Held) :
    Option Value → Held → Prop
  | absent : Takes accept fallback none fallback
  | given {given : Value} {held : Held} (accepted : accept given = .ok held) :
      Takes accept fallback (some given) held

/-- A setting that is taken from a given value was accepted. -/
theorem Takes.accept_eq_ok {Held : Type} {accept : Value → Except String Held}
    {fallback held : Held} {given : Value} (taken : Takes accept fallback (some given) held) :
    accept given = .ok held := by
  cases taken with
  | given accepted => exact accepted

namespace Reading

/-- A field is taken as it is accepted, or by default. -/
theorem ensures_field {Held : Type} {place : List String} {entries : Entries} {key : String}
    {fallback : Held} {accept : Value → Except String Held} :
    (field place entries key fallback accept).Ensures
      (Takes accept fallback (entries.field? key)) := by
  unfold field
  cases entries.field? key with
  | none => exact ensures_pure .absent
  | some given =>
      cases accepted : accept given with
      | ok held =>
          dsimp only
          rw [accepted]
          exact ensures_pure (.given accepted)
      | error reason =>
          dsimp only
          rw [accepted]
          exact ensures_refusal

end Reading

namespace LogOutput

variable [Host]

/-- A destination is read without any promise. -/
theorem ensures_readDestination (place : List String) (entries : Entries) :
    (readDestination place entries).Ensures fun _ => True := by
  unfold readDestination
  split
  · exact Reading.ensures_pure trivial
  · split
    · refine (Reading.ensures_lift _).bind fun destination => ?_
      cases destination with
      | ok destination => exact Reading.ensures_pure fun _ => trivial
      | error reason => exact Reading.ensures_refusal
    · rw [pure_bind]
      exact Reading.ensures_refusal

/-- An output is read without any promise. -/
theorem ensures_read (place : List String) (given : Value) :
    (read place given).Ensures fun _ => True := by
  unfold read
  split
  · refine Reading.ensures_field.bind fun format => ?_
    refine (ensures_readDestination _ _).bind fun destination => ?_
    refine Reading.ensures_field.bind fun level => ?_
    exact Reading.ensures_pure fun _ _ _ => trivial
  · exact Reading.ensures_refusal

/-- Outputs are read without any promise. -/
theorem ensures_readAll (place : List String) (position : Nat) (elements : List Value) :
    (readAll place position elements).Ensures fun _ => True := by
  induction elements generalizing position with
  | nil => exact Reading.ensures_pure trivial
  | cons given rest ih =>
      refine (ensures_read _ given).bind fun output => ?_
      refine (ih _).bind fun others => ?_
      exact Reading.ensures_pure fun _ _ => trivial

/-- The outputs that a setting stands for, or what is wrong with it. -/
def acceptAll : Value → Except String (List LogOutput)
  | .list elements =>
    match (readAll ["logging", "outputs"] 0 elements).outcome with
    | .ok outputs => .ok outputs
    | .error (.home fault) => .error fault.message
    | .error (.notAdmitted complaint) => .error complaint.reason
  | _ => .error "Input should be a valid list"

/-- Outputs that were read one by one are accepted as a list. -/
theorem acceptAll_list {elements : List Value} {outputs : List LogOutput}
    (outcome : (readAll ["logging", "outputs"] 0 elements).outcome = .ok outputs) :
    acceptAll (.list elements) = .ok outputs := by
  rw [acceptAll, outcome]

end LogOutput

/-- A setting of a section. -/
structure Setting (Section : Type) where
  Held : Type
  key : String
  /-- What the section holds of it. -/
  held : Section → Held
  accept : Value → Except String Held

/-- Holds if a section holds of a setting what the given value stands for, or else what the fallback
holds of it. -/
def Setting.Holds {Section : Type} (setting : Setting Section) (fallback : Section)
    (given? : Option Value) (settings : Section) : Prop :=
  Takes setting.accept (setting.held fallback) given? (setting.held settings)

/-- A setting holds what is known to be accepted. -/
theorem Setting.Holds.eq_of_accept {Section : Type} {setting : Setting Section}
    {fallback settings : Section} {given? : Option Value} {known : setting.Held}
    (holds : setting.Holds fallback given? settings)
    (accepted : (given?.bind fun given => (setting.accept given).toOption) = some known) :
    setting.held settings = known := by
  cases given? with
  | none => cases accepted
  | some given =>
      rw [Option.bind_some, Takes.accept_eq_ok holds] at accepted
      exact Option.some.inj accepted

/-- Holds if a section is what the given value stands for, which is a record then, or else the
fallback. -/
def Reflects {Section : Type} (all : List (Setting Section)) (fallback : Section) :
    Option Value → Section → Prop
  | none, settings => settings = fallback
  | some given, settings => ∃ entries, given = .record entries ∧
    ∀ setting ∈ all, setting.Holds fallback (Entries.field? entries setting.key) settings

namespace LoggingSettings

def all [Host] : List (Setting LoggingSettings) := [
  ⟨LogLevel, "level", (·.level), LogLevel.accept⟩,
  ⟨List LogOutput, "outputs", (·.outputs), LogOutput.acceptAll⟩]

/-- The settings of the log reflect what is given. -/
theorem ensures_read [Host] (given : Value) :
    (read ["logging"] given).Ensures (Reflects all default (some given)) := by
  unfold read
  split
  · next entries =>
      refine Reading.ensures_field.bind fun level => ?_
      have finish : ∀ outputs, Reading.Ensures (pure ⟨level, outputs⟩) fun settings =>
          Takes LogOutput.acceptAll [default] (Entries.field? entries "outputs") outputs →
            Takes LogLevel.accept .info (Entries.field? entries "level") level →
              Reflects all default (some (.record entries)) settings := by
        intro outputs
        refine Reading.ensures_pure fun outputsTaken levelTaken => ⟨entries, rfl, ?_⟩
        simp only [all, List.forall_mem_cons]
        exact ⟨levelTaken, outputsTaken, List.forall_mem_nil _⟩
      cases given : Entries.field? entries "outputs" with
      | none =>
          rw [given] at finish
          dsimp only
          rw [pure_bind]
          exact (finish _).mono fun _ result => result .absent
      | some value =>
          rw [given] at finish
          cases value with
          | list elements =>
              refine (LogOutput.ensures_readAll _ 0 elements).outcome.bind fun outputs => ?_
              refine (finish outputs).mono fun _ result outcome => result ?_
              exact .given (LogOutput.acceptAll_list outcome)
          | _ => exact Reading.ensures_complain.bind fun _ => Reading.ensures_pure False.elim
  · exact Reading.ensures_refusal

end LoggingSettings

namespace GrammarSettings

def all : List (Setting GrammarSettings) := [
  ⟨String, "module", (·.module), Coercion.text⟩,
  ⟨Option String, "library_path", (·.libraryPath), Coercion.optionalText⟩,
  ⟨String, "symbol", (·.symbol), Coercion.text⟩]

/-- The settings of the grammar reflect what is given. -/
theorem ensures_read (given : Value) :
    (read ["grammar"] given).Ensures (Reflects all default (some given)) := by
  unfold read
  split
  · next entries =>
      refine Reading.ensures_field.bind fun module => ?_
      refine Reading.ensures_field.bind fun libraryPath => ?_
      refine Reading.ensures_field.bind fun symbol => ?_
      refine Reading.ensures_pure fun symbolTaken libraryPathTaken moduleTaken =>
        ⟨entries, rfl, ?_⟩
      simp only [all, List.forall_mem_cons]
      exact ⟨moduleTaken, libraryPathTaken, symbolTaken, List.forall_mem_nil _⟩
  · exact Reading.ensures_refusal

end GrammarSettings

namespace ValidatorSettings

def all : List (Setting ValidatorSettings) := [
  ⟨Option String, "jar_path", (·.jarPath), Coercion.optionalText⟩,
  ⟨String, "host", (·.host), Coercion.text⟩,
  ⟨Int, "port", (·.port), acceptPort⟩,
  ⟨Float, "timeout_sec", (·.timeoutSeconds), acceptPositive⟩,
  ⟨String, "java", (·.java), Coercion.text⟩,
  ⟨Int, "connect_retries", (·.connectRetries), acceptRetries⟩,
  ⟨Float, "retry_delay_sec", (·.retryDelaySeconds), acceptPositive⟩]

/-- The settings of the validator reflect what is given. -/
theorem ensures_read (given : Value) :
    (read ["validator"] given).Ensures (Reflects all default (some given)) := by
  unfold read
  split
  · next entries =>
      refine Reading.ensures_field.bind fun jarPath => ?_
      refine Reading.ensures_field.bind fun host => ?_
      refine Reading.ensures_field.bind fun port => ?_
      refine Reading.ensures_field.bind fun timeout => ?_
      refine Reading.ensures_field.bind fun java => ?_
      refine Reading.ensures_field.bind fun retries => ?_
      refine Reading.ensures_field.bind fun delay => ?_
      refine Reading.ensures_pure fun delayTaken retriesTaken javaTaken timeoutTaken portTaken
        hostTaken jarPathTaken => ⟨entries, rfl, ?_⟩
      simp only [all, List.forall_mem_cons]
      exact ⟨jarPathTaken, hostTaken, portTaken, timeoutTaken, javaTaken, retriesTaken, delayTaken,
        List.forall_mem_nil _⟩
  · exact Reading.ensures_refusal

end ValidatorSettings

namespace ValidationSettings

def all : List (Setting ValidationSettings) := [
  ⟨Float, "debounce_sec", (·.debounceSeconds), acceptNonNegative⟩,
  ⟨Float, "dependent_debounce_sec", (·.dependentDebounceSeconds), acceptNonNegative⟩]

/-- The settings of validations reflect what is given. -/
theorem ensures_read (given : Value) :
    (read ["validation"] given).Ensures (Reflects all default (some given)) := by
  unfold read
  split
  · next entries =>
      refine Reading.ensures_field.bind fun debounce => ?_
      refine Reading.ensures_field.bind fun dependentDebounce => ?_
      refine Reading.ensures_pure fun dependentTaken debounceTaken => ⟨entries, rfl, ?_⟩
      simp only [all, List.forall_mem_cons]
      exact ⟨debounceTaken, dependentTaken, List.forall_mem_nil _⟩
  · exact Reading.ensures_refusal

end ValidationSettings

/-- A section of all settings. -/
structure Section where
  Held : Type
  name : String
  held : Settings → Held
  /-- The settings of the section. -/
  all : List (Setting Held)

namespace Settings

/-- The sections of all settings. -/
def all [Host] : List Section := [
  ⟨LoggingSettings, "logging", (·.logging), LoggingSettings.all⟩,
  ⟨GrammarSettings, "grammar", (·.grammar), GrammarSettings.all⟩,
  ⟨ValidatorSettings, "validator", (·.validator), ValidatorSettings.all⟩,
  ⟨ValidationSettings, "validation", (·.validation), ValidationSettings.all⟩]

/-- The settings of a section reflect what is given of it, or are the defaults. -/
theorem ensures_readSection {Held : Type} {all : List (Setting Held)} {fallback : Held}
    {read : List String → Value → Reading Held} {name : String} (entries : Entries)
    (ensures : ∀ given, (read [name] given).Ensures (Reflects all fallback (some given))) :
    (readSection entries name fallback read).Ensures
      (Reflects all fallback (entries.field? name)) := by
  unfold readSection
  cases entries.field? name with
  | none => exact Reading.ensures_pure rfl
  | some given => exact ensures given

/-- Sections that nobody asked for are rejected without any promise. -/
theorem ensures_rejectOthers (entries : Entries) :
    (rejectOthers entries).Ensures fun _ => True := by
  induction entries with
  | nil => exact Reading.ensures_pure trivial
  | cons entry rest ih =>
      obtain ⟨key, given⟩ := entry
      rw [rejectOthers]
      split
      · exact Reading.ensures_complain.bind fun _ => ih.mono fun _ _ => False.elim
      · exact ih

/-- The settings that are read reflect every section that is given. -/
theorem ensures_read [Host] (entries : Entries) (lenient : Bool) :
    (read entries lenient).Ensures fun settings => ∀ part ∈ all,
      Reflects part.all (part.held default) (entries.field? part.name) (part.held settings) := by
  unfold read
  refine (ensures_readSection entries LoggingSettings.ensures_read).bind fun logging => ?_
  refine (ensures_readSection entries GrammarSettings.ensures_read).bind fun grammar => ?_
  refine (ensures_readSection entries ValidatorSettings.ensures_read).bind fun validator => ?_
  refine (ensures_readSection entries ValidationSettings.ensures_read).bind fun validation => ?_
  have finish : Reading.Ensures (pure ⟨logging, grammar, validator, validation⟩) fun settings =>
      Reflects ValidationSettings.all default (entries.field? "validation") validation →
      Reflects ValidatorSettings.all default (entries.field? "validator") validator →
      Reflects GrammarSettings.all default (entries.field? "grammar") grammar →
      Reflects LoggingSettings.all default (entries.field? "logging") logging →
      ∀ part ∈ all, Reflects part.all (part.held default) (entries.field? part.name)
        (part.held settings) := by
    refine Reading.ensures_pure fun validationRead validatorRead grammarRead loggingRead => ?_
    simp only [all, List.forall_mem_cons]
    exact ⟨loggingRead, grammarRead, validatorRead, validationRead, List.forall_mem_nil _⟩
  cases lenient with
  | true => exact finish
  | false =>
      refine (ensures_rejectOthers entries).bind fun _ => ?_
      exact finish.mono fun _ result _ => result

/-- **Settings that are read without a complaint reflect the sections.** -/
theorem reflects_of_read [Host] {entries : Entries} {lenient : Bool} {settings : Settings}
    (readOk : (read entries lenient).outcome = .ok settings) {part : Section}
    (member : part ∈ all) :
    Reflects part.all (part.held default) (entries.field? part.name) (part.held settings) :=
  (ensures_read entries lenient).of_outcome readOk part member

/-- No setting stands for a record. -/
theorem accept_record_ne [Host] {part : Section} (member : part ∈ all) {setting : Setting part.Held}
    (settingMember : setting ∈ part.all) (entries : Entries) (held : setting.Held) :
    setting.accept (.record entries) ≠ .ok held := by
  simp only [all, List.mem_cons, List.not_mem_nil, or_false] at member
  rcases member with rfl | rfl | rfl | rfl
  all_goals
    simp only [LoggingSettings.all, GrammarSettings.all, ValidatorSettings.all,
      ValidationSettings.all, List.mem_cons, List.not_mem_nil, or_false] at settingMember
  · rcases settingMember with rfl | rfl <;> nofun
  · rcases settingMember with rfl | rfl | rfl <;> nofun
  · rcases settingMember with rfl | rfl | rfl | rfl | rfl | rfl | rfl <;> nofun
  · rcases settingMember with rfl | rfl <;> nofun

end Settings

namespace Reflects

variable {Held : Type} {all : List (Setting Held)} {fallback settings : Held} {entries : Entries}
  {group : String}

/-- A section that is reflected is a record. -/
theorem hasSection (reflects : Reflects all fallback (entries.field? group) settings) :
    entries.HasSection group := by
  intro value found
  rw [found] at reflects
  obtain ⟨inner, same, -⟩ := reflects
  exact ⟨inner, same⟩

/-- Every setting holds what stands under its key in its section. -/
theorem holds (reflects : Reflects all fallback (entries.field? group) settings)
    {setting : Setting Held} (member : setting ∈ all) :
    setting.Holds fallback (entries.at? group setting.key) settings := by
  cases found : entries.field? group with
  | none =>
      rw [found] at reflects
      rw [Entries.at?_of_none found]
      obtain rfl : settings = fallback := reflects
      exact .absent
  | some value =>
      rw [found] at reflects
      obtain ⟨inner, rfl, holds⟩ := reflects
      rw [Entries.at?_of_field? found]
      exact holds setting member

end Reflects

end ModelAssist
