import Mathlib.Data.Int.Order.Basic
import ModelAssist.Completion.Scope
import ModelAssist.Proofs.Selection
import ModelAssist.Proofs.Symbol.Extraction
import ModelAssist.Proofs.Tree.Query

/-!
# The scope of a completion

Of the captures that contain a point, their ends included, the first of those of fewest bytes gives
the scope (`CompletionScope.among?_eq_some_iff`).  There is none if no capture contains the point,
or if this one gives none (`CompletionScope.among?_eq_none_iff`,
`CompletionScope.ofTag?_eq_none_iff`).  The other captures do not matter
(`CompletionScope.among?_congr`).
-/

namespace ModelAssist.CompletionScope

open ModelAssist.Tree

variable {captures : List Capture} {point : Text.Point}

/-- Holds if a capture of a scope contains a point; the rest of its name encodes the scope. -/
structure Holds (point : Text.Point) (capture : Capture) (rest : String) : Prop where
  named : capture.name = tag ++ rest
  touches : touches point capture.place

/-- Holds of what the first capture of fewest bytes around a point encodes. -/
def Decides (captures : List Capture) (point : Text.Point) (rest : String) : Prop :=
  ∃ before capture after, captures = before ++ capture :: after ∧ Holds point capture rest ∧
    (∀ other ∈ before, ∀ others, Holds point other others → capture.span < other.span) ∧
    ∀ other ∈ after, ∀ others, Holds point other others → capture.span ≤ other.span

/-! ### Candidates -/

/-- What a capture offers for a point. -/
private def candidate? (point : Text.Point) (capture : Capture) : Option Candidate :=
  match Extraction.afterTag? tag capture.name with
  | none => none
  | some rest =>
    if touches point capture.place then
      some ⟨rest, (capture.place.info.endByte : Int) - capture.place.info.startByte⟩
    else none

/-- The candidates are the captures that yield one. -/
private theorem candidates_eq : candidates captures point = captures.filterMap (candidate? point) :=
  rfl

/-- A capture yields the candidate that holds at the point. -/
private theorem candidate?_eq_some_iff {capture : Capture} {candidate : Candidate} :
    candidate? point capture = some candidate ↔
      Holds point capture candidate.tag ∧ candidate.span = capture.span := by
  obtain ⟨rest, count⟩ := candidate
  constructor
  · intro given
    rw [candidate?] at given
    split at given
    · cases given
    · next rest' named =>
        split at given
        · next inside =>
            cases given
            exact ⟨⟨Extraction.afterTag?_eq_some_iff.mp named, inside⟩, rfl⟩
        · cases given
  · intro given
    obtain ⟨⟨named, inside⟩, span⟩ := given
    obtain rfl : count = capture.span := span
    rw [candidate?, Extraction.afterTag?_eq_some_iff.mpr named]
    exact if_pos inside

/-- The narrowest candidate is the first one of the least span. -/
private theorem narrowest_eq_some_iff {offered : List Candidate} {candidate : Candidate} :
    narrowest offered = some candidate ↔
      Selection.IsFirstLeast Candidate.span offered candidate :=
  Selection.search_eq_some_iff (fun _ _ => Iff.rfl) rfl fun _ _ => rfl

/-- There is a narrowest candidate unless there is none at all. -/
private theorem narrowest_eq_none_iff {offered : List Candidate} :
    narrowest offered = none ↔ offered = [] := by
  cases offered <;> simp [narrowest]

/-- Candidates are read off the captures one by one. -/
private theorem reads : Selection.Reads (candidate? point) Candidate.span (·.tag) (Holds point)
    fun capture _ => capture.span where
  sound := candidate?_eq_some_iff.mp
  complete holds := ⟨⟨_, _⟩, candidate?_eq_some_iff.mpr ⟨holds, rfl⟩, rfl⟩

/-- There is a narrowest candidate of a tag if this tag decides. -/
private theorem exists_narrowest_iff {rest : String} :
    (∃ candidate, narrowest (candidates captures point) = some candidate ∧ candidate.tag = rest) ↔
      Decides captures point rest := by
  simp only [narrowest_eq_some_iff, candidates_eq]
  exact reads.exists_isFirstLeast_iff

/-! ### The scope at a point -/

/-- **The first capture of fewest bytes decides.** -/
theorem among?_eq_some_iff {scope : CompletionScope} :
    among? captures point = some scope ↔
      ∃ rest, Decides captures point rest ∧ ofTag? rest = some scope := by
  rw [among?, Option.bind_eq_some_iff]
  constructor
  · intro found
    obtain ⟨candidate, narrow, decoded⟩ := found
    exact ⟨candidate.tag, exists_narrowest_iff.mp ⟨candidate, narrow, rfl⟩, decoded⟩
  · intro found
    obtain ⟨rest, decides, decoded⟩ := found
    obtain ⟨candidate, narrow, rfl⟩ := exists_narrowest_iff.mpr decides
    exact ⟨candidate, narrow, decoded⟩

/-- There is no scope where no capture holds or where the tag that decides names none. -/
theorem among?_eq_none_iff :
    among? captures point = none ↔
      (∀ capture ∈ captures, ∀ rest, ¬ Holds point capture rest) ∨
        ∃ rest, Decides captures point rest ∧ ofTag? rest = none := by
  have nothing : narrowest (candidates captures point) = none ↔
      ∀ capture ∈ captures, ∀ rest, ¬ Holds point capture rest := by
    rw [narrowest_eq_none_iff, candidates_eq]
    exact reads.filterMap_eq_nil_iff
  rw [among?, ← nothing]
  constructor
  · intro undecided
    cases narrow : narrowest (candidates captures point) with
    | none => exact .inl rfl
    | some candidate =>
        rw [narrow, Option.bind_some] at undecided
        exact .inr ⟨candidate.tag, exists_narrowest_iff.mp ⟨candidate, narrow, rfl⟩, undecided⟩
  · intro reasons
    rcases reasons with none_ | ⟨rest, decides, undecided⟩
    · rw [none_, Option.bind_none]
    · obtain ⟨candidate, narrow, rfl⟩ := exists_narrowest_iff.mpr decides
      rw [narrow, Option.bind_some, undecided]

/-- What gives no scope: keywords only, and what encodes no kinds. -/
theorem ofTag?_eq_none_iff {rest : String} :
    ofTag? rest = none ↔ rest = "none" ∨
      rest ∉ ["suppress", "use_path", "own_attribute"] ∧ SymbolKind.listOfTag? rest = none := by
  simp only [ofTag?, List.mem_cons, List.not_mem_nil, or_false, not_or]
  split
  · next suppress => simp [suppress]
  · split
    · next usePath => simp [usePath]
    · split
      · next own => simp [own]
      · split
        · next none_ => simp [none_]
        · simp_all

/-- Holds of the captures that may matter to a point. -/
def concerns (point : Text.Point) (capture : Capture) : Bool :=
  tag.toList.isPrefixOf capture.name.toList && touches point capture.place

/-- Captures with other names, or elsewhere, may be added, removed and moved. -/
theorem among?_congr {others : List Capture}
    (same : captures.filter (concerns point) = others.filter (concerns point)) :
    among? captures point = among? others point := by
  have silent (capture : Capture) (candidate : Candidate)
      (offered : candidate? point capture = some candidate) : concerns point capture := by
    obtain ⟨named, inside⟩ := (candidate?_eq_some_iff.mp offered).1
    simp [concerns, named, inside]
  rw [among?, among?, candidates_eq, candidates_eq,
    Selection.filterMap_congr_of_filter silent same]

end ModelAssist.CompletionScope
