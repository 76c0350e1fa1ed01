import Mathlib.Data.Prod.Lex
import ModelAssist.Proofs.Selection
import ModelAssist.Proofs.Symbol.Extraction
import ModelAssist.Proofs.Tree.Query
import ModelAssist.Symbol.Reference

/-!
# The kinds of references

Of the captures that cover a node and give it kinds, the one of fewest bytes decides, and of several
such the one of fewest kinds (`Reference.kindsAmong?_eq_some_iff`,
`Reference.kindsAmong?_eq_none_iff`).  The other captures do not matter
(`Reference.kindsAmong?_congr`).
-/

namespace ModelAssist.Reference

open ModelAssist.Tree

variable {captures : List Capture} {place : Place} {kinds : List SymbolKind}

/-- Holds if a capture covers a place. -/
def Covers (capture : Capture) (place : Place) : Prop :=
  capture.place.info.startByte ≤ place.info.startByte ∧
    place.info.endByte ≤ capture.place.info.endByte

instance (capture : Capture) (place : Place) : Decidable (Covers capture place) :=
  inferInstanceAs (Decidable (_ ∧ _))

/-- Holds if a capture covers a place and its name gives kinds. -/
structure Admits (place : Place) (capture : Capture) (kinds : List SymbolKind) : Prop where
  named : ∃ rest, capture.name = tag ++ rest ∧ SymbolKind.listOfTag? rest = some kinds
  covers : Covers capture place

/-- A capture admits the kinds of its tag wherever it covers the place. -/
theorem admits_iff {capture : Capture} :
    Admits place capture kinds ↔
      (Extraction.afterTag? tag capture.name).bind SymbolKind.listOfTag? = some kinds ∧
        Covers capture place := by
  simp only [Option.bind_eq_some_iff, Extraction.afterTag?_eq_some_iff]
  constructor
  · intro admits
    exact ⟨admits.named, admits.covers⟩
  · intro given
    exact ⟨given.1, given.2⟩

/-- A capture gives a place one list of kinds. -/
theorem Admits.unique {capture : Capture} {others : List SymbolKind}
    (admits : Admits place capture kinds) (also : Admits place capture others) : kinds = others :=
  Option.some.inj ((admits_iff.mp admits).1.symm.trans (admits_iff.mp also).1)

/-- Fewer bytes come first, and of as many bytes fewer kinds. -/
def rank (capture : Capture) (kinds : List SymbolKind) : Int ×ₗ Nat :=
  toLex (capture.span, kinds.length)

/-- Holds of the kinds that the first capture of least rank gives to a place. -/
def Decides (captures : List Capture) (place : Place) (kinds : List SymbolKind) : Prop :=
  ∃ before capture after, captures = before ++ capture :: after ∧ Admits place capture kinds ∧
    (∀ other ∈ before, ∀ others, Admits place other others →
      rank capture kinds < rank other others) ∧
    ∀ other ∈ after, ∀ others, Admits place other others → rank capture kinds ≤ rank other others

/-- No capture that gives kinds ranks below that which decides. -/
theorem Decides.exists_least (decides : Decides captures place kinds) :
    ∃ capture ∈ captures, Admits place capture kinds ∧
      ∀ other ∈ captures, ∀ others, Admits place other others →
        rank capture kinds ≤ rank other others := by
  obtain ⟨before, capture, after, rfl, admits, greater, atLeast⟩ := decides
  refine ⟨capture, List.mem_append_right _ List.mem_cons_self, admits, ?_⟩
  intro other member others otherAdmits
  rcases List.mem_append.mp member with earlier | later
  · exact le_of_lt (greater other earlier others otherAdmits)
  · rcases List.mem_cons.mp later with rfl | later
    · rw [admits.unique otherAdmits]
    · exact atLeast other later others otherAdmits

/-! ### Candidates -/

/-- What a capture offers for a place. -/
private def candidate? (place : Place) (capture : Capture) : Option Candidate := do
  let rest ← Extraction.afterTag? tag capture.name
  let info := capture.place.info
  if place.info.startByte < info.startByte || info.endByte < place.info.endByte then none
  else
    let kinds ← SymbolKind.listOfTag? rest
    some ⟨kinds, (info.endByte : Int) - info.startByte⟩

private theorem candidates_eq : candidates captures place = captures.filterMap (candidate? place) :=
  rfl

private theorem candidate?_eq_some_iff {capture : Capture} {candidate : Candidate} :
    candidate? place capture = some candidate ↔
      Admits place capture candidate.kinds ∧ candidate.span = capture.span := by
  constructor
  · intro given
    simp only [candidate?, Option.bind_eq_bind, Option.bind_eq_some_iff,
      Extraction.afterTag?_eq_some_iff] at given
    obtain ⟨rest, named, given⟩ := given
    split at given
    · cases given
    · next inside =>
        obtain ⟨kinds, read, given⟩ := Option.bind_eq_some_iff.mp given
        cases given
        refine ⟨⟨⟨rest, named, read⟩, ?_⟩, rfl⟩
        simpa [Covers] using inside
  · intro given
    obtain ⟨⟨⟨rest, named, read⟩, start, finish⟩, span⟩ := given
    obtain ⟨kinds, count⟩ := candidate
    obtain rfl : count = capture.span := span
    have inside : ¬ (place.info.startByte < capture.place.info.startByte ||
        capture.place.info.endByte < place.info.endByte) := by
      simp [start, finish]
    simp only [candidate?, Extraction.afterTag?_eq_some_iff.mpr named, Option.bind_eq_bind,
      Option.bind_some, if_neg inside]
    rw [read]
    rfl

/-- The rank of a candidate. -/
private def height (candidate : Candidate) : Int ×ₗ Nat :=
  toLex (candidate.span, candidate.kinds.length)

private theorem isTighter_iff (one other : Candidate) :
    one.isTighter other = true ↔ height one < height other := by
  simp [Candidate.isTighter, height, Prod.Lex.toLex_lt_toLex]

private theorem tightest_eq_some_iff {offered : List Candidate} {candidate : Candidate} :
    tightest offered = some candidate ↔ Selection.IsFirstLeast height offered candidate :=
  Selection.search_eq_some_iff isTighter_iff rfl fun _ _ => rfl

private theorem tightest_eq_none_iff {offered : List Candidate} :
    tightest offered = none ↔ offered = [] := by
  cases offered <;> simp [tightest]

private theorem reads :
    Selection.Reads (candidate? place) height (·.kinds) (Admits place) rank where
  sound given := by
    obtain ⟨admits, span⟩ := candidate?_eq_some_iff.mp given
    exact ⟨admits, by rw [height, rank, span]⟩
  complete admits := ⟨⟨_, _⟩, candidate?_eq_some_iff.mpr ⟨admits, rfl⟩, rfl⟩

/-! ### The kinds of a place -/

/-- **The capture of fewest bytes, and then of fewest kinds, decides.** -/
theorem kindsAmong?_eq_some_iff :
    kindsAmong? captures place = some kinds ↔ Decides captures place kinds := by
  simp only [kindsAmong?, Option.map_eq_some_iff, tightest_eq_some_iff, candidates_eq]
  exact reads.exists_isFirstLeast_iff

/-- A place refers to nothing exactly if no capture admits any kind there. -/
theorem kindsAmong?_eq_none_iff :
    kindsAmong? captures place = none ↔
      ∀ capture ∈ captures, ∀ kinds, ¬ Admits place capture kinds := by
  rw [kindsAmong?, Option.map_eq_none_iff, tightest_eq_none_iff, candidates_eq]
  exact reads.filterMap_eq_nil_iff

/-- Holds of the captures that may matter to a place. -/
def concerns (place : Place) (capture : Capture) : Bool :=
  tag.toList.isPrefixOf capture.name.toList && decide (Covers capture place)

/-- Captures with other names, or elsewhere, may be added, removed and moved. -/
theorem kindsAmong?_congr {others : List Capture}
    (same : captures.filter (concerns place) = others.filter (concerns place)) :
    kindsAmong? captures place = kindsAmong? others place := by
  have silent (capture : Capture) (candidate : Candidate)
      (offered : candidate? place capture = some candidate) : concerns place capture := by
    obtain ⟨⟨rest, named, -⟩, covers⟩ := (candidate?_eq_some_iff.mp offered).1
    simp [concerns, named, covers]
  rw [kindsAmong?, kindsAmong?, candidates_eq, candidates_eq,
    Selection.filterMap_congr_of_filter silent same]

end ModelAssist.Reference
