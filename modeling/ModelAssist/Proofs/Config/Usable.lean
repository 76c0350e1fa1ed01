import ModelAssist.Proofs.Config.Precedence

/-!
# Settings that can be used

The checks of times refuse what is zero or less, and not-a-number is neither.  So the port and the
count of attempts of settings that are loaded are always in their bounds, but a time only if the
sources do not give it as not-a-number (`Settings.load_usable_iff`).
-/

namespace ModelAssist

/-! ### Numbers and zero -/

namespace Number

open Float.Model

/-- Comparing floating-point numbers is comparing what they unpack to. -/
theorem le_iff (one other : Float) :
    one ≤ other ↔ one.toModel.unpack.le other.toModel.unpack = true := by
  change one.le other = true ↔ _
  rw [Float.le, decide_eq_true_eq]
  exact Iff.rfl

/-- Being less is told by what the numbers unpack to. -/
theorem lt_iff (one other : Float) :
    one < other ↔ one.toModel.unpack.lt other.toModel.unpack = true := by
  change one.lt other = true ↔ _
  rw [Float.lt, decide_eq_true_eq]
  exact Iff.rfl

theorem isNaN_eq (number : Float) : number.isNaN = number.toModel.unpack.isNaN :=
  rfl

theorem unpack_zero : (0 : Float).toModel.unpack = .zero .positive :=
  rfl

/-- Of the numbers, those above zero are those that are not zero or less. -/
theorem zero_lt_iff (number : Float) : 0 < number ↔ ¬ number.isNaN ∧ ¬ number ≤ 0 := by
  rw [lt_iff, le_iff, isNaN_eq, unpack_zero]
  cases number.toModel.unpack with
  | notANumber => decide
  | infinity sign => cases sign <;> decide
  | zero sign => cases sign <;> decide
  | finite sign mantissa exponent =>
      cases sign with
      | positive => exact iff_of_true rfl ⟨Bool.false_ne_true, Bool.false_ne_true⟩
      | negative => exact iff_of_false Bool.false_ne_true fun above => above.2 rfl

/-- Of the numbers, zero and those above it are those that are not below it. -/
theorem zero_le_iff (number : Float) : 0 ≤ number ↔ ¬ number.isNaN ∧ ¬ number < 0 := by
  rw [lt_iff, le_iff, isNaN_eq, unpack_zero]
  cases number.toModel.unpack with
  | notANumber => decide
  | infinity sign => cases sign <;> decide
  | zero sign => cases sign <;> decide
  | finite sign mantissa exponent =>
      cases sign with
      | positive => exact iff_of_true rfl ⟨Bool.false_ne_true, Bool.false_ne_true⟩
      | negative => exact iff_of_false Bool.false_ne_true fun above => above.2 rfl

end Number

/-! ### What the checks let through -/

/-- Holds of the values that stand for not-a-number. -/
def Value.isNotANumber (given : Value) : Bool :=
  match Coercion.number given with
  | .ok number => number.isNaN
  | .error _ => false

section

variable {given : Value}

/-- A port that is accepted is in its bounds. -/
theorem acceptPort_bounds {port : Int} (accepted : acceptPort given = .ok port) :
    1 ≤ port ∧ port ≤ 65535 := by
  cases read : Coercion.integer given with
  | error reason =>
      simp only [acceptPort, read, bind, Except.bind] at accepted
      cases accepted
  | ok value =>
      simp only [acceptPort, read, bind, Except.bind] at accepted
      split at accepted
      · next inside =>
          cases accepted
          exact inside
      · cases accepted

/-- What a check lets through is what was read, and the check does not refuse it. -/
private theorem eq_ok_of_unrefused {Held : Type} {read : Except String Held} {refused : Held → Prop}
    [DecidablePred refused] {reason : Held → String} {held : Held}
    (accepted : (do
      let value ← read
      if refused value then .error (reason value) else .ok value) = Except.ok held) :
    read = .ok held ∧ ¬ refused held := by
  cases read with
  | error fault => cases accepted
  | ok value =>
      simp only [bind, Except.bind] at accepted
      split at accepted
      · cases accepted
      · next unrefused =>
          cases accepted
          exact ⟨rfl, unrefused⟩

/-- A count of attempts that is accepted is at least one. -/
theorem acceptRetries_bounds {count : Int} (accepted : acceptRetries given = .ok count) :
    1 ≤ count := by
  rw [acceptRetries] at accepted
  obtain ⟨-, enough⟩ := eq_ok_of_unrefused accepted
  omega

variable {number : Float}

/-- What is let through as positive is so, or not a number. -/
theorem acceptPositive_bounds (accepted : acceptPositive given = .ok number) :
    0 < number ↔ ¬ given.isNotANumber := by
  rw [acceptPositive] at accepted
  obtain ⟨read, above⟩ := eq_ok_of_unrefused accepted
  rw [Number.zero_lt_iff, Value.isNotANumber, read]
  exact and_iff_left above

/-- What is let through as zero or more is so, or not a number. -/
theorem acceptNonNegative_bounds (accepted : acceptNonNegative given = .ok number) :
    0 ≤ number ↔ ¬ given.isNotANumber := by
  rw [acceptNonNegative] at accepted
  obtain ⟨read, notBelow⟩ := eq_ok_of_unrefused accepted
  rw [Number.zero_le_iff, Value.isNotANumber, read]
  exact and_iff_left notBelow

end

namespace Takes

variable {Held : Type} {accept : Value → Except String Held} {fallback held : Held}
  {given? : Option Value}

/-- What the check and the fallback ensure is ensured. -/
theorem ensured (holds : Held → Prop) (taken : Takes accept fallback given? held)
    (usual : holds fallback)
    (checked : ∀ {given held}, accept given = .ok held → holds held) : holds held := by
  cases taken with
  | absent => exact usual
  | given accepted => exact checked accepted

/-- What the check ensures of all but not-a-number is ensured unless this is given. -/
theorem ensured_iff (holds : Held → Prop) (taken : Takes accept fallback given? held)
    (usual : holds fallback)
    (checked : ∀ {given held}, accept given = .ok held → (holds held ↔ ¬ given.isNotANumber)) :
    holds held ↔ ¬ given?.any Value.isNotANumber := by
  cases taken with
  | absent => simpa using usual
  | given accepted => exact checked accepted

end Takes

namespace Settings

variable {files : FileStore} {environment : List (String × String)} {root : Path}
  {overrides sections : Entries} {settings : Settings}

/-- Holds of settings with which the server can work. -/
structure Usable (settings : Settings) : Prop where
  port : 1 ≤ settings.validator.port ∧ settings.validator.port ≤ 65535
  connectRetries : 1 ≤ settings.validator.connectRetries
  timeout : 0 < settings.validator.timeoutSeconds
  retryDelay : 0 < settings.validator.retryDelaySeconds
  debounce : 0 ≤ settings.validation.debounceSeconds
  dependentDebounce : 0 ≤ settings.validation.dependentDebounceSeconds

/-- The settings that are times, with their sections. -/
def times : List (String × String) := [("validator", "timeout_sec"),
  ("validator", "retry_delay_sec"), ("validation", "debounce_sec"),
  ("validation", "dependent_debounce_sec")]

/-- Holds if sections give a setting as not-a-number. -/
def givesNaN (sections : Entries) (group key : String) : Bool :=
  (sections.at? group key).any Value.isNotANumber

/-- Holds of settings with which the server can work, but for the times that sections give as
not-a-number. -/
structure UsableBut (sections : Entries) (settings : Settings) : Prop where
  port : 1 ≤ settings.validator.port ∧ settings.validator.port ≤ 65535
  connectRetries : 1 ≤ settings.validator.connectRetries
  timeout : 0 < settings.validator.timeoutSeconds ↔ ¬ givesNaN sections "validator" "timeout_sec"
  retryDelay :
    0 < settings.validator.retryDelaySeconds ↔ ¬ givesNaN sections "validator" "retry_delay_sec"
  debounce :
    0 ≤ settings.validation.debounceSeconds ↔ ¬ givesNaN sections "validation" "debounce_sec"
  dependentDebounce : 0 ≤ settings.validation.dependentDebounceSeconds ↔
    ¬ givesNaN sections "validation" "dependent_debounce_sec"

/-- What is read is usable but for what is given as not-a-number. -/
theorem usableBut_of_read [Host] (readOk : (read sections false).outcome = .ok settings) :
    settings.UsableBut sections := by
  have validatorPart :
      ⟨ValidatorSettings, "validator", (·.validator), ValidatorSettings.all⟩ ∈ all :=
    .tail _ (.tail _ (.head _))
  have validationPart :
      ⟨ValidationSettings, "validation", (·.validation), ValidationSettings.all⟩ ∈ all :=
    .tail _ (.tail _ (.tail _ (.head _)))
  have validator : ∀ setting ∈ ValidatorSettings.all,
      setting.Holds (default : Settings).validator (sections.at? "validator" setting.key)
        settings.validator :=
    fun _ member => (reflects_of_read readOk validatorPart).holds member
  have validation : ∀ setting ∈ ValidationSettings.all,
      setting.Holds (default : Settings).validation (sections.at? "validation" setting.key)
        settings.validation :=
    fun _ member => (reflects_of_read readOk validationPart).holds member
  simp only [ValidatorSettings.all, ValidationSettings.all, List.forall_mem_cons]
    at validator validation
  obtain ⟨-, -, port, timeout, -, retries, delay, -⟩ := validator
  obtain ⟨debounce, dependents, -⟩ := validation
  exact {
    port := Takes.ensured (fun port => 1 ≤ port ∧ port ≤ 65535) port (by decide) acceptPort_bounds
    connectRetries := Takes.ensured (1 ≤ ·) retries (by decide) acceptRetries_bounds
    timeout := Takes.ensured_iff (0 < ·) timeout (by decide +kernel) acceptPositive_bounds
    retryDelay := Takes.ensured_iff (0 < ·) delay (by decide +kernel) acceptPositive_bounds
    debounce := Takes.ensured_iff (0 ≤ ·) debounce (by decide +kernel) acceptNonNegative_bounds
    dependentDebounce :=
      Takes.ensured_iff (0 ≤ ·) dependents (by decide +kernel) acceptNonNegative_bounds }

/-- **Settings that are loaded can be used exactly if no time is given as not-a-number.** -/
theorem load_usable_iff [Host] (loaded : load files environment root overrides = .ok settings) :
    ∃ sections, merged files environment root overrides = .ok sections ∧
      settings.UsableBut sections ∧
      (settings.Usable ↔ ∀ time ∈ times, ¬ givesNaN sections time.1 time.2) := by
  obtain ⟨sections, merged, readOk⟩ := exists_merged_of_load loaded
  have but := usableBut_of_read readOk
  refine ⟨sections, merged, but, ?_⟩
  simp only [times, List.forall_mem_cons, ← but.timeout, ← but.retryDelay, ← but.debounce,
    ← but.dependentDebounce]
  constructor
  · intro usable
    exact ⟨usable.timeout, usable.retryDelay, usable.debounce, usable.dependentDebounce,
      List.forall_mem_nil _⟩
  · intro times
    obtain ⟨timeout, retryDelay, debounce, dependentDebounce, -⟩ := times
    exact ⟨but.port, but.connectRetries, timeout, retryDelay, debounce, dependentDebounce⟩

/-- A variable that gives a time as not-a-number. -/
private def boundless : List (String × String) := [("UMPLE_LSP__VALIDATOR__TIMEOUT_SEC", "nan")]

section

open scoped Trial

private theorem load_boundless :
    ∃ settings, load ⟨∅, .allowed⟩ boundless ⟨.root, ["w"]⟩ [] = .ok settings := by
  have succeeds : (load ⟨∅, .allowed⟩ boundless ⟨.root, ["w"]⟩ []).toOption.isSome := by
    decide +kernel
  generalize load ⟨∅, .allowed⟩ boundless ⟨.root, ["w"]⟩ [] = result at succeeds ⊢
  cases result with
  | error fault => cases succeeds
  | ok settings => exact ⟨settings, rfl⟩

/-- The settings of the couple can be used, and those with a boundless timeout are loaded all the
same. -/
theorem load_usable_iff_boundless :
    (∃ settings, load couple coupleVariables ⟨.root, ["w"]⟩ coupleOverrides = .ok settings ∧
      settings.Usable) ∧
    ∃ settings, load ⟨∅, .allowed⟩ boundless ⟨.root, ["w"]⟩ [] = .ok settings ∧
      ¬ settings.Usable := by
  constructor
  · obtain ⟨settings, loaded⟩ := load_couple
    obtain ⟨sections, merged, -, usable⟩ := load_usable_iff loaded
    have numbers : (Settings.merged couple coupleVariables ⟨.root, ["w"]⟩
        coupleOverrides).toOption.any fun sections =>
          times.all fun time => !givesNaN sections time.1 time.2 := by
      rw [Settings.merged, documents_eq_ok document_globalPath document_workspace]
      decide +kernel
    rw [merged] at numbers
    refine ⟨settings, loaded, usable.mpr fun time member => ?_⟩
    simpa using List.all_eq_true.mp numbers time member
  · obtain ⟨settings, loaded⟩ := load_boundless
    obtain ⟨sections, merged, -, usable⟩ := load_usable_iff loaded
    have notANumber : (Settings.merged ⟨∅, .allowed⟩ boundless ⟨.root, ["w"]⟩ []).toOption.any
        (givesNaN · "validator" "timeout_sec") := by
      decide +kernel
    rw [merged] at notANumber
    refine ⟨settings, loaded, fun all => ?_⟩
    exact usable.mp all ("validator", "timeout_sec") (.head _) notANumber

end

end Settings

end ModelAssist
