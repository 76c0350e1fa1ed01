import ModelAssist.Proofs.Config.Precedence

/-!
# What breaks off loading

Two faults are never told as a fault of a setting: a variable that should be JSON and cannot be
taken (`Variable.sections_eq_error_iff`), and a destination of the log in a home directory that
cannot be found (`Settings.breaksOffIf_read`).
-/

namespace ModelAssist

/-! ## Variables of sections -/

namespace Variable

variable {environment : List (String × String)} {group text : String}

/-- Holds of the faults that keep a variable of some form from being taken: what may be other than
JSON is taken as it is unless it is too deep. -/
def Form.Spoils (form : Form) (fault : VariableFault) : Prop :=
  form = .json ∨ form = .maybeJson ∧ fault = .tooDeep

variable [Host]

/-- Holds if the variable of a section, or that of a single setting, cannot be taken.  The latter
counts where the variable of its section is an object or not set. -/
inductive Garbled (environment : List (String × String)) : Prop
  | group {group text : String} {fault : VariableFault} (known : group ∈ Settings.sectionNames)
      (found : text? environment (nameStart ++ group) = some text)
      (garbled : ofJson text = .error fault) : Garbled environment
  | single {group rest text : String} {fault : VariableFault}
      (known : group ∈ Settings.sectionNames)
      (counts : ∀ value, ofSection? environment group = some value →
        ∃ entries, value = .record entries)
      (found : text? environment (nameStart ++ group ++ "__" ++ rest) = some text)
      (given : text ≠ "") (garbled : ofJson text = .error fault)
      (spoils : (formOf group (pieces rest)).Spoils fault) : Garbled environment

/-- The text of a variable has no value if it should be JSON, is not, and its form spoils the fault.
-/
theorem valueOf_eq_error_iff {form : Form} : (∃ fault, valueOf form text = .error fault) ↔
    text ≠ "" ∧ ∃ fault, ofJson text = .error fault ∧ form.Spoils fault := by
  unfold valueOf Form.Spoils
  by_cases empty : text = ""
  · simp [empty]
  · cases ofJson text with
    | ok value => cases form <;> simp [empty]
    | error fault => cases form <;> cases fault <;> simp [empty]

/-- What the loop over the variables does with one of them. -/
def placeSingle (group : String) (entries : Entries) (held : String × String) :
    Except VariableFault Entries :=
  let start := nameStart ++ group ++ "__"
  if start.toList.isPrefixOf held.1.toList then
    let keys := pieces (String.ofList (held.1.toList.drop start.length))
    (valueOf (formOf group keys) held.2).map fun value => placeAt entries value keys
  else .ok entries

/-- A single variable cannot be placed if its text has no value. -/
theorem placeSingle_eq_error_iff {entries : Entries} {name : String} :
    (∃ fault, placeSingle group entries (name, text) = .error fault) ↔
      ∃ rest, name = nameStart ++ group ++ "__" ++ rest ∧
        ∃ fault, valueOf (formOf group (pieces rest)) text = .error fault := by
  generalize start : nameStart ++ group ++ "__" = before
  simp only [placeSingle, start]
  split
  · next isPrefix =>
      obtain ⟨rest, joined⟩ := List.isPrefixOf_iff_prefix.mp isPrefix
      obtain rfl : name = before ++ String.ofList rest := by
        rw [← String.toList_inj, String.toList_append, String.toList_ofList, joined]
      rw [String.toList_append, String.toList_ofList, ← String.length_toList, List.drop_left]
      have mapped : (∃ fault, (valueOf (formOf group (pieces (String.ofList rest))) text).map
            (fun value => placeAt entries value (pieces (String.ofList rest))) = .error fault) ↔
          ∃ fault, valueOf (formOf group (pieces (String.ofList rest))) text = .error fault := by
        cases valueOf (formOf group (pieces (String.ofList rest))) text <;> simp [Except.map]
      refine mapped.trans ⟨fun failed => ⟨_, rfl, failed⟩, ?_⟩
      rintro ⟨other, same, failed⟩
      obtain rfl := (String.append_right_inj _).mp same
      exact failed
  · next notPrefix =>
      refine iff_of_false nofun ?_
      rintro ⟨rest, rfl, -⟩
      rw [List.isPrefixOf_iff_prefix, String.toList_append] at notPrefix
      exact notPrefix (List.prefix_append _ _)

/-- The single variables of a section cannot be taken if one of their texts has no value. -/
theorem singles_eq_error_iff : (∃ fault, singles environment group = .error fault) ↔
    ∃ rest text, (nameStart ++ group ++ "__" ++ rest, text) ∈ environment ∧
      ∃ fault, valueOf (formOf group (pieces rest)) text = .error fault := by
  -- Whether a variable can be placed does not depend on what was placed before, so the induction is
  -- over any entries to begin with.
  have loop : ∀ entries,
      (∃ fault, environment.foldlM (placeSingle group) entries = .error fault) ↔
      ∃ rest text, (nameStart ++ group ++ "__" ++ rest, text) ∈ environment ∧
        ∃ fault, valueOf (formOf group (pieces rest)) text = .error fault := by
    induction environment with
    | nil => exact fun _ => iff_of_false nofun (by simp)
    | cons first others ih =>
        intro entries
        obtain ⟨name, held⟩ := first
        rw [List.foldlM_cons]
        have placedIff : (∃ fault, placeSingle group entries (name, held) = .error fault) ↔ _ :=
          placeSingle_eq_error_iff
        cases placed : placeSingle group entries (name, held) with
        | error fault =>
            obtain ⟨rest, rfl, failed⟩ := placedIff.mp ⟨fault, placed⟩
            exact iff_of_true ⟨fault, rfl⟩ ⟨rest, held, List.mem_cons_self, failed⟩
        | ok after =>
            refine (ih after).trans ?_
            constructor
            · rintro ⟨rest, text, member, failed⟩
              exact ⟨rest, text, List.mem_cons_of_mem _ member, failed⟩
            · rintro ⟨rest, text, member, failed⟩
              refine ⟨rest, text, (List.mem_cons.mp member).resolve_left ?_, failed⟩
              rintro ⟨⟩
              obtain ⟨fault, broken⟩ := placedIff.mpr ⟨rest, rfl, failed⟩
              rw [broken] at placed
              cases placed
  exact loop []

/-- Of the single settings only those that may be JSON can fail to be taken. -/
theorem singles_normalized_eq_error_iff :
    (∃ fault, singles (normalized environment) group = .error fault) ↔
      ∃ rest text, text? environment (nameStart ++ group ++ "__" ++ rest) = some text ∧
        text ≠ "" ∧ ∃ fault, ofJson text = .error fault ∧
          (formOf group (pieces rest)).Spoils fault := by
  have held : ∀ name text, (name, text) ∈ normalized environment ↔
      text? environment name = some text := by
    intro name text
    have distinct : (OrderedMap.mk (normalized environment)).keys.Nodup :=
      nodup_normalized environment
    rw [← lookup_normalized]
    exact ⟨OrderedMap.get?_of_mem_entries distinct, OrderedMap.mem_entries_of_get?⟩
  simp only [singles_eq_error_iff, held, valueOf_eq_error_iff]

/-- A section of the environment is missing where its variable cannot be taken, or where that of one
of its single settings cannot and counts. -/
theorem sectionOf_normalized_eq_error_iff :
    (∃ fault, sectionOf (normalized environment) group = .error fault) ↔
      (∃ text fault, text? environment (nameStart ++ group) = some text ∧
        ofJson text = .error fault) ∨
      (∀ value, ofSection? environment group = some value → ∃ entries, value = .record entries) ∧
        ∃ fault, singles (normalized environment) group = .error fault := by
  rw [sectionOf, lookup_normalized, ofSection?]
  cases text? environment (nameStart ++ group) with
  | none => cases singles (normalized environment) group <;> simp [Except.map]
  | some text =>
      cases parsed : ofJson text with
      | error fault => simp [parsed]
      | ok value =>
          cases value <;> cases singles (normalized environment) group <;>
            simp [parsed, Except.toOption, Except.map]

/-- The sections cannot be taken if one of them cannot. -/
theorem foldlM_take_eq_error_iff {names : List String} (before : Entries) :
    (∃ fault, names.foldlM (take environment) before = .error fault) ↔
      ∃ group ∈ names, ∃ fault, sectionOf (normalized environment) group = .error fault := by
  induction names generalizing before with
  | nil => simp [pure, Except.pure]
  | cons first rest ih =>
      rw [List.foldlM_cons]
      cases taken : take environment before first with
      | error fault =>
          refine iff_of_true ⟨fault, rfl⟩ ⟨first, List.mem_cons_self, ?_⟩
          unfold take at taken
          split at taken
          · next fault failed => exact ⟨fault, failed⟩
          · cases taken
          · cases taken
      | ok after =>
          have present : ¬ ∃ fault, sectionOf (normalized environment) first = .error fault := by
            rintro ⟨fault, failed⟩
            rw [take, failed] at taken
            cases taken
          rw [List.exists_mem_cons_iff, or_iff_right present]
          exact ih after

/-- **The sections of the environment are missing exactly if a variable is garbled.** -/
theorem sections_eq_error_iff :
    (∃ fault, sections environment = .error fault) ↔ Garbled environment := by
  refine (foldlM_take_eq_error_iff []).trans ?_
  simp only [sectionOf_normalized_eq_error_iff, singles_normalized_eq_error_iff]
  constructor
  · rintro ⟨group, known, ⟨text, fault, found, garbled⟩ | ⟨counts, rest, text, found, single⟩⟩
    · exact .group known found garbled
    · obtain ⟨given, fault, garbled, spoils⟩ := single
      exact .single known counts found given garbled spoils
  · rintro (⟨known, found, garbled⟩ | ⟨known, counts, found, given, garbled, spoils⟩)
    · exact ⟨_, known, .inl ⟨_, _, found, garbled⟩⟩
    · exact ⟨_, known, .inr ⟨counts, _, _, found, given, _, garbled, spoils⟩⟩

end Variable

/-! ## Destinations of the log -/

namespace Reading

variable {Read Other : Type} {reading : Reading Read} {condition condition' : Prop}

/-- Holds of the readings that break off exactly under a condition, whatever they complained of
before. -/
def BreaksOffIf (reading : Reading Read) (condition : Prop) : Prop :=
  ∀ before, (∃ fault, reading.run before = .error fault) ↔ condition

/-- The condition under which a reading breaks off may be told otherwise. -/
theorem BreaksOffIf.congr (breaks : reading.BreaksOffIf condition)
    (same : condition ↔ condition') : reading.BreaksOffIf condition' :=
  fun before => (breaks before).trans same

/-- What is read already does not break off. -/
theorem breaksOffIf_pure (read : Read) : BreaksOffIf (pure read) False :=
  fun _ => iff_of_false nofun id

/-- A complaint does not break off a reading. -/
theorem breaksOffIf_complain {place : List String} {given : Value} {reason : String} :
    (complain place given reason).BreaksOffIf False :=
  fun _ => iff_of_false nofun id

/-- Whether the second reading breaks off does not depend on what the first one read. -/
theorem BreaksOffIf.bind {next : Read → Reading Other} (first : reading.BreaksOffIf condition)
    (second : ∀ read, (next read).BreaksOffIf condition') :
    BreaksOffIf (reading >>= next) (condition ∨ condition') := by
  intro before
  have firstBreaks := first before
  rw [StateT.run_bind]
  cases reached : reading.run before with
  | error fault =>
      have broken := firstBreaks.mp ⟨fault, reached⟩
      exact iff_of_true ⟨fault, rfl⟩ (.inl broken)
  | ok middle =>
      obtain ⟨read, between⟩ := middle
      have unbroken : ¬ condition := by
        rw [← firstBreaks, reached]
        nofun
      exact (second read between).trans (or_iff_right unbroken).symm

/-- A first reading that never breaks off. -/
theorem BreaksOffIf.skip {next : Read → Reading Other} (first : reading.BreaksOffIf False)
    (second : ∀ read, (next read).BreaksOffIf condition) :
    BreaksOffIf (reading >>= next) condition := by
  have both := first.bind second
  rwa [false_or] at both

/-- A second reading that never breaks off. -/
theorem BreaksOffIf.andThen {next : Read → Reading Other} (first : reading.BreaksOffIf condition)
    (second : ∀ read, (next read).BreaksOffIf False) :
    BreaksOffIf (reading >>= next) condition := by
  have both := first.bind second
  rwa [or_false] at both

/-- A value that is refused does not break off a reading. -/
theorem breaksOffIf_refusal {place : List String} {given : Value} {reason : String} {read : Read} :
    BreaksOffIf (do complain place given reason; pure read) False :=
  breaksOffIf_complain.skip fun _ => breaksOffIf_pure read

/-- A field does not break off a reading, whatever it holds. -/
theorem breaksOffIf_field {Held : Type} {place : List String} {entries : Entries} {key : String}
    {fallback : Held} {accept : Value → Except String Held} :
    (field place entries key fallback accept).BreaksOffIf False := by
  unfold field
  split
  · exact breaksOffIf_pure _
  · split
    · exact breaksOffIf_pure _
    · exact breaksOffIf_refusal

/-- A result that was found already breaks off a reading if it is a fault. -/
theorem breaksOffIf_lift (result : Except HomeFault Read) :
    BreaksOffIf (liftM result) (∃ fault, result = .error fault) := by
  intro before
  cases result with
  | ok read => exact iff_of_false nofun nofun
  | error fault => exact iff_of_true ⟨fault, rfl⟩ ⟨fault, rfl⟩

end Reading

namespace LogOutput

open Reading

variable [Host]

/-- Holds of the destinations in the home directory of somebody who is not known. -/
def IsHomeless (text : String) : Prop :=
  text ≠ errorStream ∧ text ≠ outputStream ∧ (Path.ofText text).expandHome? = none

/-- A text names no destination if it begins with a home directory that cannot be found. -/
theorem destinationOf_eq_error_iff {text : String} :
    (∃ fault, destinationOf text = .error fault) ↔ IsHomeless text := by
  unfold destinationOf IsHomeless
  by_cases error : text = errorStream
  · simp [error]
  · by_cases output : text = outputStream
    · subst output
      simp [error]
    · cases (Path.ofText text).expandHome? with
      | none => simp [error, output]
      | some path => cases absolute : path.isAbsolute <;> simp [error, output, absolute]

/-- Holds of the outputs whose destination is homeless. -/
def HasNoHome (output : Value) : Prop :=
  ∃ entries text, output = .record entries ∧
    Entries.field? entries "destination" = some (.text text) ∧ IsHomeless text

/-- A destination breaks off a reading if its text begins with a home directory that cannot be
found. -/
theorem breaksOffIf_readDestination (place : List String) (entries : Entries) :
    (readDestination place entries).BreaksOffIf
      (∃ text, entries.field? "destination" = some (.text text) ∧ IsHomeless text) := by
  unfold readDestination
  cases given : entries.field? "destination" with
  | none => exact (breaksOffIf_pure _).congr (by simp)
  | some value =>
      -- Only a text is taken for a destination; any other value is complained of and goes no
      -- further.
      cases read : Coercion.text value with
      | error reason =>
          have noText : ∀ text, value ≠ .text text := by
            rintro text rfl
            cases read
          dsimp only
          rw [read]
          dsimp only
          rw [pure_bind]
          exact breaksOffIf_refusal.congr (by simp [noText])
      | ok text =>
          obtain rfl : value = .text text := by
            cases value <;> cases read
            rfl
          have lifted := (breaksOffIf_lift (destinationOf text)).congr destinationOf_eq_error_iff
          refine (lifted.andThen fun destination => ?_).congr (by simp)
          cases destination with
          | ok destination => exact breaksOffIf_pure _
          | error reason => exact breaksOffIf_refusal

/-- An output breaks off a reading if it has no home. -/
theorem breaksOffIf_read (place : List String) (output : Value) :
    (read place output).BreaksOffIf (HasNoHome output) := by
  unfold read
  split
  · next entries =>
      have breaks := breaksOffIf_readDestination place entries
      refine breaksOffIf_field.skip fun format => ?_
      refine (breaks.andThen fun destination => ?_).congr (by simp [HasNoHome])
      refine breaksOffIf_field.skip fun level => ?_
      exact breaksOffIf_pure _
  · next other =>
      refine breaksOffIf_refusal.congr (iff_of_false id ?_)
      rintro ⟨entries, text, rfl, -⟩
      exact other entries rfl

/-- Outputs break off a reading if one of them has no home. -/
theorem breaksOffIf_readAll (place : List String) (position : Nat) (outputs : List Value) :
    (readAll place position outputs).BreaksOffIf (∃ output ∈ outputs, HasNoHome output) := by
  induction outputs generalizing position with
  | nil => exact (breaksOffIf_pure _).congr (by simp)
  | cons output rest ih =>
      rw [List.exists_mem_cons_iff]
      exact (breaksOffIf_read _ output).bind fun _ => (ih _).andThen fun _ => breaksOffIf_pure _

end LogOutput

open Reading

/-- The settings of the log break off a reading if one of their outputs has no home. -/
theorem LoggingSettings.breaksOffIf_read [Host] (place : List String) (given : Value) :
    (read place given).BreaksOffIf (∃ entries outputs, given = .record entries ∧
      Entries.field? entries "outputs" = some (.list outputs) ∧
        ∃ output ∈ outputs, LogOutput.HasNoHome output) := by
  unfold read
  split
  · next entries =>
      refine breaksOffIf_field.skip fun level => ?_
      cases found : Entries.field? entries "outputs" with
      | none => exact (breaksOffIf_pure _).congr (by simp [found])
      | some value =>
          cases value with
          | list outputs =>
              have breaks := LogOutput.breaksOffIf_readAll (place ++ ["outputs"]) 0 outputs
              refine (breaks.andThen fun outputs => ?_).congr (by simp [found])
              exact breaksOffIf_pure _
          | _ => exact breaksOffIf_refusal.congr (by simp [found])
  · next other =>
      refine breaksOffIf_refusal.congr (iff_of_false id ?_)
      rintro ⟨entries, outputs, rfl, -⟩
      exact other entries rfl

/-- The settings of the grammar never break off a reading. -/
theorem GrammarSettings.breaksOffIf_read (place : List String) (given : Value) :
    (read place given).BreaksOffIf False := by
  unfold read
  split
  · refine breaksOffIf_field.skip fun module => ?_
    refine breaksOffIf_field.skip fun libraryPath => ?_
    refine breaksOffIf_field.skip fun symbol => ?_
    exact breaksOffIf_pure _
  · exact breaksOffIf_refusal

/-- The settings of the validator never break off a reading. -/
theorem ValidatorSettings.breaksOffIf_read (place : List String) (given : Value) :
    (read place given).BreaksOffIf False := by
  unfold read
  split
  · refine breaksOffIf_field.skip fun jarPath => ?_
    refine breaksOffIf_field.skip fun host => ?_
    refine breaksOffIf_field.skip fun port => ?_
    refine breaksOffIf_field.skip fun timeout => ?_
    refine breaksOffIf_field.skip fun java => ?_
    refine breaksOffIf_field.skip fun retries => ?_
    refine breaksOffIf_field.skip fun delay => ?_
    exact breaksOffIf_pure _
  · exact breaksOffIf_refusal

/-- The settings of validations never break off a reading. -/
theorem ValidationSettings.breaksOffIf_read (place : List String) (given : Value) :
    (read place given).BreaksOffIf False := by
  unfold read
  split
  · refine breaksOffIf_field.skip fun debounce => ?_
    refine breaksOffIf_field.skip fun dependentDebounce => ?_
    exact breaksOffIf_pure _
  · exact breaksOffIf_refusal

namespace Settings

/-- A section breaks off a reading if it is given and its own reading does. -/
theorem breaksOffIf_readSection (entries : Entries) {Held : Type} {name : String} {fallback : Held}
    {read : List String → Value → Reading Held} {condition : Value → Prop}
    (breaks : ∀ given, (read [name] given).BreaksOffIf (condition given)) :
    (readSection entries name fallback read).BreaksOffIf
      (∃ given, entries.field? name = some given ∧ condition given) := by
  unfold readSection
  cases entries.field? name with
  | none => exact (breaksOffIf_pure _).congr (by simp)
  | some given => exact (breaks given).congr (by simp)

/-- Sections that nobody asked for do not break off a reading. -/
theorem breaksOffIf_rejectOthers (entries : Entries) :
    (rejectOthers entries).BreaksOffIf False := by
  induction entries with
  | nil => exact breaksOffIf_pure _
  | cons entry rest ih =>
      obtain ⟨key, given⟩ := entry
      rw [rejectOthers]
      split
      · exact breaksOffIf_complain.skip fun _ => ih
      · exact ih

/-- **Reading breaks off exactly if an output of the log has a homeless destination.** -/
theorem breaksOffIf_read [Host] (entries : Entries) (lenient : Bool) :
    (read entries lenient).BreaksOffIf (∃ outputs,
      entries.at? "logging" "outputs" = some (.list outputs) ∧
        ∃ output ∈ outputs, LogOutput.HasNoHome output) := by
  have logging : (readSection entries "logging" default LoggingSettings.read).BreaksOffIf _ :=
    breaksOffIf_readSection entries (LoggingSettings.breaksOffIf_read ["logging"])
  have never : ∀ {Held : Type} {name : String} {fallback : Held}
      {read : List String → Value → Reading Held},
      (∀ given, (read [name] given).BreaksOffIf False) →
        (readSection entries name fallback read).BreaksOffIf False :=
    fun breaks => (breaksOffIf_readSection entries breaks).congr (by simp)
  have outputs : (∃ given, entries.field? "logging" = some given ∧
      ∃ inner outputs, given = .record inner ∧
        Entries.field? inner "outputs" = some (.list outputs) ∧
          ∃ output ∈ outputs, LogOutput.HasNoHome output) ↔
      ∃ outputs, entries.at? "logging" "outputs" = some (.list outputs) ∧
        ∃ output ∈ outputs, LogOutput.HasNoHome output := by
    rw [Entries.at?]
    cases entries.field? "logging" with
    | none => simp
    | some given => cases given <;> simp
  unfold read
  refine (logging.congr outputs).andThen fun logging => ?_
  refine (never (GrammarSettings.breaksOffIf_read _)).skip fun grammar => ?_
  refine (never (ValidatorSettings.breaksOffIf_read _)).skip fun validator => ?_
  refine (never (ValidationSettings.breaksOffIf_read _)).skip fun validation => ?_
  cases lenient with
  | true => exact breaksOffIf_pure _
  | false => exact (breaksOffIf_rejectOthers entries).skip fun _ => breaksOffIf_pure _

end Settings

end ModelAssist
