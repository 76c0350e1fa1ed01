import ModelAssist.Proofs.Config.Report
import ModelAssist.Proofs.Diagnostic.Payload

/-!
# What breaks the reading of records

A field that holds no integer gets its default, and an entry that is no object is left out.  Two
things are not passed over: an infinite number where a line or a severity is expected, and, anywhere
in the payload, an integer with more digits than the limit.  Then nothing is read at all; else every
object of the results has its record, in order (`ValidatorRecord.read_eq_iff`).
-/

namespace ModelAssist

/-- The integer that a value stands for, or the default if it stands for none. -/
def Value.integerOr (default : Int) (value : Value) : Int :=
  match value.integer with
  | .ok number => number
  | .error _ => default

/-- Holds of the floating-point numbers beyond all others. -/
def Value.IsInfinite (value : Value) : Prop :=
  ∃ number : Float, value = .float number ∧ number.isNaN = false ∧ number.isInf

namespace ValidatorRecord

/-- What an entry says in a field, null if it has none. -/
def field (entry : Entries) (name : String) : Value :=
  (entry.field? name).getD .null

/-- The record of an entry with defaults for whatever it does not say. -/
def lenient (entry : Entries) : ValidatorRecord where
  filename := (textField? entry "filename").getD ""
  line := (field entry "line").integerOr defaultLine
  severity := .ofNumber ((field entry "severity").integerOr defaultSeverity)
  errorCode := textField? entry "errorCode"
  message := (textField? entry "message").getD ""

/-- Holds of the entries that ask for an infinite line or severity. -/
def IsUnbounded (entry : Entries) : Prop :=
  (field entry "line").IsInfinite ∨ (field entry "severity").IsInfinite

/-- What the reader makes of the payload of a problem segment, if it has one. -/
def payloadValue? (problems : String) : Option (Except Json.ReadError Value) :=
  (payload? problems.toList).map fun payload => Json.read (unescapeQuotes payload)

/-- The objects among the results of a problem segment, in order; none if it has no results. -/
def entriesOf (problems : String) : List Entries :=
  match payloadValue? problems with
  | some (.ok (.record entries)) =>
    match Entries.field? entries "results" with
    | some (.list results) => objects results
    | _ => []
  | _ => []

/-- What breaks the reading of a problem segment. -/
inductive Breaks (problems : String) : PayloadFault → Prop
  | numeral {digits : Nat}
      (tooLong : payloadValue? problems = some (.error (.numeralTooLong digits))) :
      Breaks problems (.numeralTooLong digits)
  | infinite {entry : Entries} (member : entry ∈ entriesOf problems)
      (unbounded : IsUnbounded entry) : Breaks problems .infinite

/-! ## One entry -/

variable {entry : Entries} {entries : List Entries} {problems : String}

/-- A field breaks off the reading only with an infinite number, and else counts as it stands or as
its default. -/
theorem integerField_cases (entry : Entries) (name : String) (default : Int) :
    ((field entry name).IsInfinite ∧ integerField entry name default = .error .infinite) ∨
      (¬ (field entry name).IsInfinite ∧
        integerField entry name default = .ok ((field entry name).integerOr default)) := by
  have infinite_iff := @Value.integer_eq_infinite_iff (field entry name)
  rw [Value.IsInfinite, ← infinite_iff]
  have same : (entry.field? name).getD .null = field entry name := rfl
  rw [integerField, same, Value.integerOr]
  cases (field entry name).integer with
  | ok value => exact .inr ⟨by simp, rfl⟩
  | error fault => cases fault <;> simp

/-- An entry with an infinite number cannot be read. -/
theorem ofEntry_of_unbounded (unbounded : IsUnbounded entry) :
    ofEntry entry = .error .infinite := by
  rw [ofEntry]
  rcases integerField_cases entry "line" defaultLine with ⟨-, line⟩ | ⟨finite, line⟩
  · rw [line]
    rfl
  · rcases integerField_cases entry "severity" defaultSeverity with
      ⟨-, severity⟩ | ⟨finite', -⟩
    · rw [line, severity]
      rfl
    · exact (unbounded.elim finite finite').elim

/-- An entry without infinite numbers is read leniently. -/
theorem ofEntry_of_bounded (bounded : ¬ IsUnbounded entry) :
    ofEntry entry = .ok (lenient entry) := by
  rw [IsUnbounded, not_or] at bounded
  obtain ⟨line⟩ | ⟨-, line⟩ := integerField_cases entry "line" defaultLine
  · exact (bounded.1 line.1).elim
  obtain ⟨severity⟩ | ⟨-, severity⟩ := integerField_cases entry "severity" defaultSeverity
  · exact (bounded.2 severity.1).elim
  rw [ofEntry, line, severity]
  rfl

/-! ## A list of entries -/

/-- Entries without infinite numbers are all read leniently. -/
theorem mapM_ofEntry_of_bounded (bounded : ∀ entry ∈ entries, ¬ IsUnbounded entry) :
    entries.mapM ofEntry = .ok (entries.map lenient) := by
  induction entries with
  | nil => rfl
  | cons entry entries ih =>
      rw [List.mapM_cons, ofEntry_of_bounded (bounded entry List.mem_cons_self),
        ih fun other member => bounded other (List.mem_cons_of_mem _ member)]
      rfl

/-- One entry with an infinite number breaks the reading of all. -/
theorem mapM_ofEntry_of_unbounded (unbounded : ∃ entry ∈ entries, IsUnbounded entry) :
    entries.mapM ofEntry = .error .infinite := by
  induction entries with
  | nil => simp at unbounded
  | cons entry entries ih =>
      rw [List.mapM_cons]
      by_cases first : IsUnbounded entry
      · rw [ofEntry_of_unbounded first]
        rfl
      · have later : ∃ other ∈ entries, IsUnbounded other := by simpa [first] using unbounded
        rw [ofEntry_of_bounded first, ih later]
        rfl

/-! ## A problem segment -/

/-- Reading comes to the records of the objects in the results, unless the reader stopped at a
numeral. -/
theorem read_eq_mapM (unstopped : ∀ digits,
      payloadValue? problems ≠ some (.error (.numeralTooLong digits))) :
    read problems = (entriesOf problems).mapM ofEntry := by
  unfold read entriesOf
  unfold payloadValue? at unstopped ⊢
  cases enclosed : payload? problems.toList with
  | none => rfl
  | some payload =>
      simp only [enclosed, Option.map_some] at unstopped ⊢
      cases accepted : Json.read (unescapeQuotes payload) with
      | error fault =>
          cases fault with
          | malformed => rfl
          | numeralTooLong digits => exact (unstopped digits (by rw [accepted])).elim
      | ok value =>
          cases value with
          | record entries =>
              simp only
              cases Entries.field? entries "results" with
              | none => rfl
              | some results => cases results <;> rfl
          | _ => rfl

/-- A numeral that is too long breaks the reading. -/
theorem read_of_numeral {digits : Nat}
    (tooLong : payloadValue? problems = some (.error (.numeralTooLong digits))) :
    read problems = .error (.numeralTooLong digits) := by
  obtain ⟨payload, enclosed, stopped⟩ := Option.map_eq_some_iff.mp tooLong
  rw [read, enclosed]
  simp only [stopped]

/-- What breaks the reading is its fault. -/
theorem read_of_breaks {fault : PayloadFault} (breaks : Breaks problems fault) :
    read problems = .error fault := by
  cases breaks with
  | numeral tooLong => exact read_of_numeral tooLong
  | infinite member unbounded =>
      have unstopped (digits : Nat) :
          payloadValue? problems ≠ some (.error (.numeralTooLong digits)) := by
        intro tooLong
        simp [entriesOf, tooLong] at member
      rw [read_eq_mapM unstopped]
      exact mapM_ofEntry_of_unbounded ⟨_, member, unbounded⟩

/-- Unless something breaks the reading, all entries are read leniently. -/
theorem read_of_unbroken (unbroken : ∀ fault, ¬ Breaks problems fault) :
    read problems = .ok ((entriesOf problems).map lenient) := by
  rw [read_eq_mapM fun _ tooLong => unbroken _ (.numeral tooLong)]
  exact mapM_ofEntry_of_bounded fun _ member unbounded => unbroken _ (.infinite member unbounded)

/-- **Reading is lenient but for two faults.**  A problem segment is refused exactly for an infinite
line or severity of one of its entries or for an integer beyond the limit of digits; every other
segment, whatever it holds, has the records of its entries in order, each with the defaults for what
it does not say. -/
theorem read_eq_iff (problems : String) :
    (∀ fault, read problems = .error fault ↔ Breaks problems fault) ∧
      ∀ records, read problems = .ok records ↔
        records = (entriesOf problems).map lenient ∧ ∀ fault, ¬ Breaks problems fault := by
  by_cases broken : ∃ fault, Breaks problems fault
  · obtain ⟨fault, breaks⟩ := broken
    have refused := read_of_breaks breaks
    refine ⟨fun other => ⟨fun same => ?_, read_of_breaks⟩, fun records => ⟨fun same => ?_, ?_⟩⟩
    · rw [refused] at same
      exact Except.error.inj same ▸ breaks
    · rw [refused] at same
      cases same
    · rintro ⟨-, unbroken⟩
      exact (unbroken fault breaks).elim
  · have unbroken : ∀ fault, ¬ Breaks problems fault := not_exists.mp broken
    have accepted := read_of_unbroken unbroken
    refine ⟨fun other => ⟨fun same => ?_, fun breaks => (unbroken _ breaks).elim⟩,
      fun records => ⟨fun same => ?_, ?_⟩⟩
    · rw [accepted] at same
      cases same
    · rw [accepted] at same
      exact ⟨(Except.ok.inj same).symm, unbroken⟩
    · rintro ⟨rfl, -⟩
      exact accepted

end ValidatorRecord

end ModelAssist
