import ModelAssist.Proofs.Config.Precedence

/-!
# Which faults of the configuration are reported

A fault of the configuration is reported where it comes as a failure, which says what is wrong.
Some faults come as something else and escape the report.  Among flat names these are the ones of
`FlatName.escapes_sections_iff`, in the environment the one of
`FlatName.overlooked_environment_iff`, and among documents those of `Settings.escapes_document_iff`.
-/

namespace ModelAssist

/-- Holds of the faults that tell what is wrong. -/
def LoadFault.IsReport : LoadFault → Prop
  | .failure _ => True
  | _ => False

@[simp]
theorem LoadFault.isReport_iff {fault : LoadFault} :
    fault.IsReport ↔ ∃ cause, fault = .failure cause := by
  cases fault <;> simp [IsReport]

/-- Holds of attempts that end in a fault without a report. -/
def Escapes {Result : Type} (outcome : Except LoadFault Result) : Prop :=
  ∃ fault, outcome = .error fault ∧ ¬ fault.IsReport

section

variable {Result Other : Type} {outcome : Except LoadFault Result} {fault : LoadFault}

@[simp]
theorem not_escapes_ok (result : Result) : ¬ Escapes (.ok result) := by
  rintro ⟨fault, impossible, -⟩
  cases impossible

@[simp]
theorem escapes_error_iff :
    Escapes (.error fault : Except LoadFault Result) ↔ ¬ fault.IsReport := by
  constructor
  · rintro ⟨_, ⟨⟩, escapes⟩
    exact escapes
  · intro escapes
    exact ⟨fault, rfl, escapes⟩

/-- Translating the fault of an attempt is no matter of its result. -/
theorem mapError_eq_ok_iff {Fault Fault' : Type} {attempt : Except Fault Result}
    {translate : Fault → Fault'} {result : Result} :
    attempt.mapError translate = .ok result ↔ attempt = .ok result := by
  cases attempt <;> simp [Except.mapError]

/-- What does not fail unreported ends well or in a report. -/
theorem not_escapes_iff : ¬ Escapes outcome ↔
    (∃ result, outcome = .ok result) ∨ ∃ cause, outcome = .error (.failure cause) := by
  cases outcome with
  | ok result => simp
  | error fault => simp

/-- Of two attempts, either the first one escapes, or it ends well and then the second one does. -/
theorem escapes_bind_iff {next : Result → Except LoadFault Other} :
    Escapes (outcome >>= next) ↔
      Escapes outcome ∨ ∃ result, outcome = .ok result ∧ Escapes (next result) := by
  cases outcome with
  | ok result =>
      have both : (Except.ok result >>= next) = next result := rfl
      simp [both]
  | error fault =>
      have both : (Except.error fault >>= next) = .error fault := rfl
      simp [both]

end

/-! ## Flat names -/

/-- Holds of the values under a flat name that its setting cannot have and that are not reported. -/
inductive FlatForm.Overlooks [Host] : FlatForm → Value → Prop
  /-- It cannot be shown, but is to become a text. -/
  | text {given : Value} {fault : DisplayFault} (unshown : given.shown = .error fault) :
      Overlooks .text given
  /-- It is no number, and the report of that cannot be written either. -/
  | sort {form : FlatForm} {given : Value} {fault : IntegerFault} {display : DisplayFault}
      (numeric : form ≠ .text) (none : given.integer = .error fault)
      (unshown : given.shown = .error display) : Overlooks form given
  | infinite {form : FlatForm} {number : Float} (numeric : form ≠ .text)
      (known : number.isNaN = false) (infinite : number.isInf) : Overlooks form (.float number)
  /-- There are too many milliseconds for a number of seconds. -/
  | tooLarge {given : Value} {count : Int} (whole : given.integer = .ok count)
      (large : (Number.nearest (count < 0) ⟨count.natAbs, -3⟩).isInf) :
      Overlooks .milliseconds given

/-- No numeral is read as infinite. -/
theorem Numeral.read_ne_infinite (text : String) : Numeral.read text ≠ .error .infinite := by
  unfold Numeral.read
  grind

/-- Only infinite numbers are infinite as whole ones. -/
theorem Value.integer_eq_infinite_iff {given : Value} : given.integer = .error .infinite ↔
    ∃ number, given = .float number ∧ number.isNaN = false ∧ number.isInf := by
  cases given with
  | text text => simp [Value.integer, Numeral.read_ne_infinite]
  | float number =>
      rw [Value.integer]
      constructor
      · intro beyond
        split at beyond
        · cases beyond
        · next known =>
            split at beyond
            · next infinite => exact ⟨number, rfl, Bool.eq_false_iff.mpr known, infinite⟩
            · cases beyond
      · rintro ⟨_, ⟨⟩, known, infinite⟩
        rw [known, infinite]
        rfl
  | _ => simp [Value.integer]

namespace FlatName

/-- What a flat name is given; null and the empty text count as nothing. -/
def given? (values : Entries) (name : FlatName) : Option Value :=
  match (values.field? name.name).getD .null with
  | .null => none
  | .text "" => none
  | given => some given

variable {values sections : Entries} {name : FlatName} {given : Value}

/-- A flat name is given nothing by null, by an empty text, or where it is absent. -/
theorem given?_eq_none_iff : name.given? values = none ↔
    (values.field? name.name).getD .null = .null ∨
      (values.field? name.name).getD .null = .text "" := by
  unfold given?
  split
  · next same => exact iff_of_true rfl (.inl same)
  · next same => exact iff_of_true rfl (.inr same)
  · next notNull notEmpty => exact iff_of_false nofun (not_or.mpr ⟨notNull, notEmpty⟩)

/-- What a flat name is given is its field. -/
theorem given?_eq_some (found : name.given? values = some given) :
    (values.field? name.name).getD .null = given := by
  unfold given? at found
  split at found
  · cases found
  · cases found
  · exact Option.some.inj found

section

variable [Host]

/-- A flat name that is given nothing changes no sections. -/
theorem take_of_none (absent : name.given? values = none) :
    take values sections name = .ok sections := by
  unfold take
  obtain same | same := given?_eq_none_iff.mp absent <;> simp only [same]

/-- A flat name that is given something is placed if that converts, and reported otherwise. -/
theorem take_of_some (found : name.given? values = some given) : take values sections name =
    match name.form.convert given with
    | .ok value => .ok (name.place sections value)
    | .error fault => .error (fault.report name given) := by
  -- The given value is neither of the two that `take` passes over.
  have isGiven := given?_eq_some found
  have present : name.given? values ≠ none := by simp [found]
  rw [Ne, given?_eq_none_iff, not_or] at present
  unfold take
  rw [isGiven] at present ⊢
  split
  · exact (present.1 rfl).elim
  · exact (present.2 rfl).elim
  · rfl

/-- What is no whole number is reported unless it is infinite or cannot be shown. -/
theorem isReport_notInteger_iff {fault : IntegerFault} :
    (LoadFault.ofFlat ((FlatFault.notInteger fault).report name given)).IsReport ↔
      fault ≠ .infinite ∧ ∃ text, given.shown = .ok text := by
  cases fault with
  | infinite => simp [FlatFault.report, LoadFault.ofFlat]
  | _ =>
      rw [FlatFault.report]
      · split <;> simp_all [LoadFault.ofFlat]
      · nofun

/-- A value that is no number is reported unless it is infinite or cannot be shown. -/
theorem overlooks_iff_of_error (name : FlatName) {form : FlatForm} {fault : IntegerFault}
    (numeric : form ≠ .text) (none : given.integer = .error fault) :
    form.Overlooks given ↔
      ¬ (LoadFault.ofFlat ((FlatFault.notInteger fault).report name given)).IsReport := by
  have unshownIff :
      (¬ ∃ text, given.shown = .ok text) ↔ ∃ display, given.shown = .error display := by
    cases given.shown <;> simp
  rw [isReport_notInteger_iff, not_and_or, not_not, unshownIff]
  constructor
  · intro overlooks
    cases overlooks with
    | text unshown => exact absurd rfl numeric
    | sort _ _ unshown => exact .inr ⟨_, unshown⟩
    | infinite _ known infinite =>
        have beyond := Value.integer_eq_infinite_iff.mpr ⟨_, rfl, known, infinite⟩
        exact .inl (Except.error.inj (none.symm.trans beyond))
    | tooLarge whole _ =>
        rw [none] at whole
        cases whole
  · rintro (rfl | ⟨display, unshown⟩)
    · obtain ⟨number, rfl, known, infinite⟩ := Value.integer_eq_infinite_iff.mp none
      exact .infinite numeric known infinite
    · exact .sort numeric none unshown

/-- A value that is a number is overlooked only where it means too many milliseconds. -/
theorem overlooks_iff_of_ok {form : FlatForm} {count : Int} (numeric : form ≠ .text)
    (whole : given.integer = .ok count) : form.Overlooks given ↔
      form = .milliseconds ∧ (Number.nearest (count < 0) ⟨count.natAbs, -3⟩).isInf := by
  constructor
  · intro overlooks
    cases overlooks with
    | text _ => exact absurd rfl numeric
    | sort _ none _ =>
        rw [none] at whole
        cases whole
    | infinite _ known infinite =>
        rw [Value.integer_eq_infinite_iff.mpr ⟨_, rfl, known, infinite⟩] at whole
        cases whole
    | tooLarge whole' large =>
        obtain rfl := Except.ok.inj (whole.symm.trans whole')
        exact ⟨rfl, large⟩
  · rintro ⟨rfl, large⟩
    exact .tooLarge whole large

/-- The faults of a conversion that are not reported are those of the values that it overlooks. -/
theorem overlooks_iff : name.form.Overlooks given ↔
    ∃ fault, name.form.convert given = .error fault ∧
      ¬ (LoadFault.ofFlat (fault.report name given)).IsReport := by
  generalize name.form = form
  cases form with
  | text =>
      have overlooked : FlatForm.text.Overlooks given ↔ ∃ fault, given.shown = .error fault := by
        constructor
        · rintro (unshown | ⟨numeric, -, -⟩ | ⟨numeric, -, -⟩)
          · exact ⟨_, unshown⟩
          · exact absurd rfl numeric
          · exact absurd rfl numeric
        · rintro ⟨fault, unshown⟩
          exact .text unshown
      rw [overlooked, FlatForm.convert]
      cases given.shown <;> simp [FlatFault.report, LoadFault.ofFlat, Except.mapError, Except.map]
  | integer =>
      have numeric : FlatForm.integer ≠ .text := nofun
      rw [FlatForm.convert]
      cases whole : given.integer with
      | ok count =>
          rw [overlooks_iff_of_ok numeric whole]
          simp [Except.mapError, Except.map]
      | error fault =>
          rw [overlooks_iff_of_error name numeric whole]
          simp [Except.mapError, Except.map]
  | milliseconds =>
      have numeric : FlatForm.milliseconds ≠ .text := nofun
      rw [FlatForm.convert]
      cases whole : given.integer with
      | ok count =>
          rw [overlooks_iff_of_ok numeric whole]
          simp only [Except.mapError, bind, Except.bind]
          split <;> simp_all [FlatFault.report, LoadFault.ofFlat]
      | error fault =>
          rw [overlooks_iff_of_error name numeric whole]
          simp [Except.mapError, bind, Except.bind]

/-- Holds if a value under a list of flat names is overlooked before another one is reported. -/
inductive Overlooked (values : Entries) : List FlatName → Prop
  | here {name : FlatName} {rest : List FlatName} {given : Value}
      (found : name.given? values = some given) (overlooks : name.form.Overlooks given) :
      Overlooked values (name :: rest)
  | later {name : FlatName} {rest : List FlatName}
      (fine : ∀ given, name.given? values = some given →
        ∃ value, name.form.convert given = .ok value)
      (overlooked : Overlooked values rest) : Overlooked values (name :: rest)

/-- Of no flat names none is overlooked. -/
theorem not_overlooked_nil : ¬ Overlooked values [] :=
  nofun

/-- The first of some flat names is overlooked, or it is fine and a later one is. -/
theorem overlooked_cons_iff {rest : List FlatName} : Overlooked values (name :: rest) ↔
    (∃ given, name.given? values = some given ∧ name.form.Overlooks given) ∨
      (∀ given, name.given? values = some given →
        ∃ value, name.form.convert given = .ok value) ∧ Overlooked values rest := by
  constructor
  · rintro (⟨found, overlooks⟩ | ⟨fine, overlooked⟩)
    · exact .inl ⟨_, found, overlooks⟩
    · exact .inr ⟨fine, overlooked⟩
  · rintro (⟨given, found, overlooks⟩ | ⟨fine, overlooked⟩)
    · exact .here found overlooks
    · exact .later fine overlooked

/-- A flat name fails unreported if its form overlooks what it is given. -/
theorem escapes_take_iff : Escapes ((take values sections name).mapError .ofFlat) ↔
    ∃ given, name.given? values = some given ∧ name.form.Overlooks given := by
  cases found : name.given? values with
  | none => simp [take_of_none found, Except.mapError]
  | some given =>
      rw [take_of_some found]
      simp only [Option.some.injEq, exists_eq_left', overlooks_iff]
      cases converted : name.form.convert given with
      | ok value => simp [Except.mapError]
      | error fault => simp [Except.mapError]

/-- A flat name can be taken if what it is given converts. -/
theorem take_isOk_iff : (∃ after, take values sections name = .ok after) ↔
    ∀ given, name.given? values = some given → ∃ value, name.form.convert given = .ok value := by
  cases found : name.given? values with
  | none => simp [take_of_none found]
  | some given =>
      rw [take_of_some found]
      cases converted : name.form.convert given <;> simp [converted]

/-- Flat names are taken one after another, and the first fault counts. -/
theorem mapError_foldlM_take_cons (name : FlatName) (rest : List FlatName) :
    ((name :: rest).foldlM (take values) sections).mapError LoadFault.ofFlat =
      (take values sections name).mapError LoadFault.ofFlat >>= fun after =>
        (rest.foldlM (take values) after).mapError LoadFault.ofFlat := by
  rw [List.foldlM_cons]
  cases take values sections name <;> rfl

/-- Flat names fail unreported if one is overlooked before any is reported. -/
theorem escapes_foldlM_take_iff (names : List FlatName) (sections : Entries) :
    Escapes ((names.foldlM (take values) sections).mapError .ofFlat) ↔
      Overlooked values names := by
  -- What earlier names gave does not matter, so the sections are any.
  induction names generalizing sections with
  | nil => exact iff_of_false (not_escapes_ok _) not_overlooked_nil
  | cons name rest ih =>
      rw [mapError_foldlM_take_cons, escapes_bind_iff, escapes_take_iff, overlooked_cons_iff]
      refine or_congr_right ?_
      simp only [mapError_eq_ok_iff, ih, exists_and_right, take_isOk_iff]

/-- **Flat names escape the report exactly if one of them is overlooked.** -/
theorem escapes_sections_iff {names : List FlatName} :
    Escapes ((FlatName.sections values names).mapError .ofFlat) ↔ Overlooked values names :=
  escapes_foldlM_take_iff names []

end

/-! ### Flat names in the environment -/

/-- What a variable holds; of several with one name the last one counts. -/
def lastText? (environment : List (String × String)) (name : String) : Option String :=
  (environment.reverse.find? fun entry => entry.1 = name).map (·.2)

/-- The variables of an environment as a record. -/
def texts (environment : List (String × String)) : Entries :=
  Entries.ofPairs (environment.map fun (name, text) => (Key.text name, Value.text text))

/-- Holds if the timeout has too many milliseconds and no fault of the port is reported before. -/
structure TimeoutOverlooked (environment : List (String × String)) : Prop where
  port : ∀ text, lastText? environment "UMPLESYNC_PORT" = some text →
    text = "" ∨ ∃ port, Numeral.read text = .ok port
  timeout : ∃ text count, lastText? environment "UMPLESYNC_TIMEOUT_MS" = some text ∧
    Numeral.read text = .ok count ∧ (Number.nearest (count < 0) ⟨count.natAbs, -3⟩).isInf

variable {environment : List (String × String)}

/-- A flat name is given by the environment what the last text of its variable is, unless that is
empty. -/
theorem given?_texts_eq_some_iff : name.given? (texts environment) = some given ↔
    ∃ text, lastText? environment name.name = some text ∧ text ≠ "" ∧ given = .text text := by
  rw [given?, texts, field?_ofPairs_environment, lastText?]
  cases (environment.reverse.find? fun entry => entry.1 = name.name).map (·.2) with
  | none => simp
  | some text => by_cases empty : text = "" <;> simp [empty, eq_comm]

/-- Of texts only those that should be milliseconds are overlooked. -/
theorem not_overlooks_text [Host] {form : FlatForm} (other : form ≠ .milliseconds)
    (text : String) : ¬ form.Overlooks (.text text) := by
  intro overlooks
  cases overlooks with
  | text unshown => cases unshown
  | sort _ _ unshown => cases unshown
  | tooLarge _ _ => exact other rfl

/-- A variable with a text is never at fault. -/
theorem overlooked_texts_cons [Host] {rest : List FlatName} (form : name.form = .text) :
    Overlooked (texts environment) (name :: rest) ↔ Overlooked (texts environment) rest := by
  rw [overlooked_cons_iff]
  constructor
  · rintro (⟨given, found, overlooks⟩ | ⟨-, overlooked⟩)
    · obtain ⟨text, -, -, rfl⟩ := given?_texts_eq_some_iff.mp found
      have other : name.form ≠ .milliseconds := form ▸ nofun
      exact absurd overlooks (not_overlooks_text other text)
    · exact overlooked
  · intro overlooked
    refine .inr ⟨?_, overlooked⟩
    intro given found
    obtain ⟨text, -, -, rfl⟩ := given?_texts_eq_some_iff.mp found
    rw [form]
    exact ⟨.text text, rfl⟩

/-- A value converts to a whole number if it is read as one. -/
theorem convert_integer_isOk_iff [Host] : (∃ value, FlatForm.integer.convert given = .ok value) ↔
    ∃ count, given.integer = .ok count := by
  rw [FlatForm.convert]
  cases given.integer <;> simp [Except.mapError, Except.map]

/-- In the environment only the timeout can be overlooked. -/
theorem overlooked_environment_iff [Host] :
    Overlooked (texts environment) FlatName.environment ↔ TimeoutOverlooked environment := by
  rw [FlatName.environment, overlooked_texts_cons rfl, overlooked_texts_cons rfl,
    overlooked_cons_iff, overlooked_cons_iff, overlooked_texts_cons rfl]
  have other : FlatForm.integer ≠ .milliseconds := nofun
  constructor
  · rintro (⟨given, found, overlooks⟩ | ⟨fine, ⟨given, found, overlooks⟩ | ⟨-, overlooked⟩⟩)
    · obtain ⟨text, -, -, rfl⟩ := given?_texts_eq_some_iff.mp found
      exact absurd overlooks (not_overlooks_text other text)
    · obtain ⟨text, textFound, -, rfl⟩ := given?_texts_eq_some_iff.mp found
      refine ⟨?_, text, ?_⟩
      · intro port portFound
        by_cases empty : port = ""
        · exact .inl empty
        · obtain ⟨value, converted⟩ :=
            fine _ (given?_texts_eq_some_iff.mpr ⟨port, portFound, empty, rfl⟩)
          exact .inr (convert_integer_isOk_iff.mp ⟨value, converted⟩)
      · cases overlooks with
        | sort _ _ long => cases long
        | tooLarge whole large => exact ⟨_, textFound, whole, large⟩
    · exact absurd overlooked not_overlooked_nil
  · rintro ⟨port, text, count, found, whole, large⟩
    refine .inr ⟨?_, .inl ⟨.text text, ?_, .tooLarge whole large⟩⟩
    · intro given portGiven
      obtain ⟨text, portFound, given, rfl⟩ := given?_texts_eq_some_iff.mp portGiven
      exact convert_integer_isOk_iff.mpr ((port text portFound).resolve_left given)
    · refine given?_texts_eq_some_iff.mpr ⟨text, found, ?_, rfl⟩
      rintro rfl
      cases whole

end FlatName

/-! ## Documents -/

namespace Settings

variable {files : FileStore} {path : Path}

/-- Holds if a document cannot be read as a text, if its parts lie too deep inside each other, or if
a scalar in it has no value; a document that does not follow the grammar is reported. -/
inductive DocumentOverlooked [Host] (files : FileStore) (path : Path) : Prop
  | sealed (found : files.lookup? path = some .sealed)
  | directory (found : files.lookup? path = some .directory)
  | damaged {content : List UInt8} (found : files.lookup? path = some (.file content))
      (damaged : (Text.damage? content).isSome)
  | tooDeep {text : List Char} (read : files.text path = .ok text)
      (tooDeep : Host.tooDeep .yaml text = true)
  | scalar {text : List Char} {fault : Yaml.YamlFault} (read : files.text path = .ok text)
      (shallow : Host.tooDeep .yaml text = false) (none : Yaml.read text = .error fault)
      (wellFormed : fault ≠ .malformed)

/-- A text cannot be read, though something is there, if it is sealed, a directory or damaged. -/
theorem text_fault_iff : (∃ fault, files.text path = .error fault ∧ fault ≠ .file (.missing path)) ↔
    files.lookup? path = some .sealed ∨ files.lookup? path = some .directory ∨
      ∃ content, files.lookup? path = some (.file content) ∧ (Text.damage? content).isSome := by
  rw [FileStore.text, FileStore.read]
  cases files.lookup? path with
  | none => simp
  | some entry =>
      cases entry with
      | file content => cases damage : Text.damage? content <;> simp [damage]
      | _ => simp

/-- A file that is reported missing is the one that was asked for. -/
theorem eq_of_missing {other : Path} (read : files.text path = .error (.file (.missing other))) :
    other = path := by
  rw [FileStore.text, FileStore.read] at read
  grind

/-- A document is overlooked if it cannot be opened or decoded, is nested too deeply, or has a
scalar without a value. -/
theorem documentOverlooked_iff [Host] : DocumentOverlooked files path ↔
    (∃ fault, files.text path = .error fault ∧ fault ≠ .file (.missing path)) ∨
      ∃ text, files.text path = .ok text ∧ (Host.tooDeep .yaml text = true ∨
        Host.tooDeep .yaml text = false ∧
          ∃ fault, Yaml.read text = .error fault ∧ fault ≠ .malformed) := by
  rw [text_fault_iff]
  constructor
  · rintro (found | found | ⟨found, damaged⟩ | ⟨read, tooDeep⟩ | ⟨read, shallow, none, wellFormed⟩)
    · exact .inl (.inl found)
    · exact .inl (.inr (.inl found))
    · exact .inl (.inr (.inr ⟨_, found, damaged⟩))
    · exact .inr ⟨_, read, .inl tooDeep⟩
    · exact .inr ⟨_, read, .inr ⟨shallow, _, none, wellFormed⟩⟩
  · rintro ((found | found | ⟨content, found, damaged⟩) |
      ⟨text, read, tooDeep | ⟨shallow, fault, none, wellFormed⟩⟩)
    · exact .sealed found
    · exact .directory found
    · exact .damaged found damaged
    · exact .tooDeep read tooDeep
    · exact .scalar read shallow none wellFormed

/-- **A document escapes the report exactly if it is overlooked.** -/
theorem escapes_document_iff [Host] :
    Escapes (document files path) ↔ DocumentOverlooked files path := by
  rw [documentOverlooked_iff]
  unfold document
  split
  · next other read =>
      obtain rfl := eq_of_missing read
      simp [read]
  · next fault there read =>
      have present : fault ≠ .file (.missing path) := there path
      simp [read, present]
  · next text read =>
      simp only [read, reduceCtorEq, false_and, exists_false, false_or, Except.ok.injEq,
        exists_eq_left']
      cases deep : Host.tooDeep .yaml text with
      | true => simp
      | false =>
          simp only [Bool.false_eq_true, if_false, false_or, true_and]
          split
          · next malformed => simp [malformed]
          · next fault other none =>
              have wellFormed : fault ≠ .malformed := other
              simp [none, wellFormed]
          · next parsed => simp [parsed]
          · next parsed => split <;> simp [parsed]

-- A day that there is not has no value, although the document follows the grammar.
example : (match Yaml.read "since: 2001-13-45".toList with
    | .error fault => decide (fault = .noSuchMoment "month must be in 1..12")
    | .ok _ => false) = true := by
  decide +kernel

end Settings

end ModelAssist
