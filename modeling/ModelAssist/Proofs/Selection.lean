import Mathlib.Data.List.Basic
import Mathlib.Data.List.Induction
import Mathlib.Order.Lattice

/-!
# The first of the least

A search that keeps the best item so far, and changes it only for a better one, ends at the first of
the items with the least key (`search_eq_some_iff`, `IsFirstLeast.unique`).  The items may be read
off other ones, of which some are skipped (`Reads.exists_isFirstLeast_iff`,
`filterMap_congr_of_filter`).
-/

namespace ModelAssist.Selection

variable {Source Item Key : Type} [LinearOrder Key] {key : Item → Key}

/-- Holds of an item of a list if all items before it have greater keys, and none behind it has a
smaller one. -/
def IsFirstLeast (key : Item → Key) (items : List Item) (least : Item) : Prop :=
  ∃ before after, items = before ++ least :: after ∧
    (∀ other ∈ before, key least < key other) ∧ ∀ other ∈ after, key least ≤ key other

namespace IsFirstLeast

variable {items : List Item} {least : Item}

/-- A first least item is one of the items. -/
theorem mem (first : IsFirstLeast key items least) : least ∈ items := by
  obtain ⟨before, after, rfl, -⟩ := first
  exact List.mem_append_right _ List.mem_cons_self

/-- A first least item has the least key. -/
theorem le (first : IsFirstLeast key items least) {other : Item} (member : other ∈ items) :
    key least ≤ key other := by
  obtain ⟨before, after, rfl, above, atLeast⟩ := first
  rcases List.mem_append.mp member with earlier | later
  · exact le_of_lt (above other earlier)
  · rcases List.mem_cons.mp later with rfl | later
    · exact le_refl _
    · exact atLeast other later

/-- There is only one first of the least. -/
theorem unique (first : IsFirstLeast key items least) {second : Item}
    (also : IsFirstLeast key items second) : least = second := by
  have below := first.le also.mem
  have above := also.le first.mem
  obtain ⟨before, after, split, greater, -⟩ := first
  obtain ⟨before', after', split', greater', -⟩ := also
  rw [split] at split'
  rcases List.append_eq_append_iff.mp split' with ⟨between, front, back⟩ | ⟨between, front, back⟩
  · cases between with
    | nil => exact (List.cons.inj back).1
    | cons head between =>
        obtain ⟨rfl, -⟩ := List.cons.inj back
        exact absurd below (not_le_of_gt (greater' least (by simp [front])))
  · cases between with
    | nil => exact (List.cons.inj back).1.symm
    | cons head between =>
        obtain ⟨rfl, -⟩ := List.cons.inj back
        exact absurd above (not_le_of_gt (greater second (by simp [front])))

end IsFirstLeast

/-- The search ends at the first of the least, if to be better is to have a smaller key. -/
theorem isFirstLeast_foldl {better : Item → Item → Prop} [DecidableRel better]
    (compares : ∀ one other, better one other ↔ key one < key other) (item : Item)
    (items : List Item) :
    IsFirstLeast key (item :: items)
      (items.foldl (fun best other => if better other best then other else best) item) := by
  induction items using List.reverseRecOn with
  | nil => exact ⟨[], [], rfl, by simp, by simp⟩
  | append_singleton items last ih =>
      rw [List.foldl_append, List.foldl_cons, List.foldl_nil, ← List.cons_append]
      generalize items.foldl _ item = best at ih
      split
      · next smaller =>
          rw [compares] at smaller
          exact ⟨item :: items, [], rfl, fun other member => lt_of_lt_of_le smaller (ih.le member),
            by simp⟩
      · next worse =>
          rw [compares] at worse
          obtain ⟨before, after, split, greater, atLeast⟩ := ih
          refine ⟨before, after ++ [last], by rw [split]; simp, greater, fun other member => ?_⟩
          rcases List.mem_append.mp member with earlier | final
          · exact atLeast other earlier
          · rw [List.mem_singleton.mp final]
            exact le_of_not_gt worse

/-- Such a search among all items, which finds nothing among none, finds the first of the least. -/
theorem search_eq_some_iff {better : Item → Item → Prop} [DecidableRel better]
    (compares : ∀ one other, better one other ↔ key one < key other)
    {search : List Item → Option Item} (nothing : search [] = none)
    (keeps : ∀ item items, search (item :: items) =
      some (items.foldl (fun best other => if better other best then other else best) item))
    {items : List Item} {least : Item} :
    search items = some least ↔ IsFirstLeast key items least := by
  cases items with
  | nil =>
      rw [nothing]
      exact iff_of_false (fun impossible => by cases impossible) fun first => by cases first.mem
  | cons item items =>
      have first := isFirstLeast_foldl compares item items
      rw [keeps, Option.some_inj]
      constructor
      · intro same
        rwa [same] at first
      · exact first.unique

/-- The first of the least of what is read off some sources comes from one of them; those before it
give greater ones or nothing. -/
theorem isFirstLeast_filterMap_iff {read : Source → Option Item} {sources : List Source}
    {least : Item} :
    IsFirstLeast key (sources.filterMap read) least ↔
      ∃ before source after, sources = before ++ source :: after ∧ read source = some least ∧
        (∀ other ∈ before, ∀ item, read other = some item → key least < key item) ∧
        ∀ other ∈ after, ∀ item, read other = some item → key least ≤ key item := by
  constructor
  · rintro ⟨before, after, split, greater, atLeast⟩
    obtain ⟨front, back, rfl, rfl, backSplit⟩ := List.filterMap_eq_append_iff.mp split
    obtain ⟨skipped, source, rest, rfl, nothing, found, rfl⟩ :=
      List.filterMap_eq_cons_iff.mp backSplit
    refine ⟨front ++ skipped, source, rest, by simp, found, ?_, ?_⟩
    · intro other member item given
      rcases List.mem_append.mp member with early | passed
      · exact greater item (List.mem_filterMap.mpr ⟨other, early, given⟩)
      · rw [nothing other passed] at given
        cases given
    · intro other member item given
      exact atLeast item (List.mem_filterMap.mpr ⟨other, member, given⟩)
  · rintro ⟨before, source, after, rfl, found, greater, atLeast⟩
    refine ⟨before.filterMap read, after.filterMap read, ?_, ?_, ?_⟩
    · rw [List.filterMap_append, List.filterMap_cons, found]
    · intro item member
      obtain ⟨other, earlier, given⟩ := List.mem_filterMap.mp member
      exact greater other earlier item given
    · intro item member
      obtain ⟨other, later, given⟩ := List.mem_filterMap.mp member
      exact atLeast other later item given

/-- Holds if what is read off a source bears one of its labels, by whose rank it is compared, and if
each label of a source is borne by what is read off it. -/
structure Reads {Label : Type} (read : Source → Option Item) (key : Item → Key)
    (labelOf : Item → Label) (holds : Source → Label → Prop) (rank : Source → Label → Key) :
    Prop where
  sound : ∀ {source item}, read source = some item →
    holds source (labelOf item) ∧ key item = rank source (labelOf item)
  complete : ∀ {source label}, holds source label →
    ∃ item, read source = some item ∧ labelOf item = label

namespace Reads

variable {Label : Type} {read : Source → Option Item} {labelOf : Item → Label}
  {holds : Source → Label → Prop} {rank : Source → Label → Key} {sources : List Source}
  (reads : Reads read key labelOf holds rank)
include reads

/-- The first of the least bears the label of least rank that comes first. -/
theorem exists_isFirstLeast_iff {label : Label} :
    (∃ item, IsFirstLeast key (sources.filterMap read) item ∧ labelOf item = label) ↔
      ∃ before source after, sources = before ++ source :: after ∧ holds source label ∧
        (∀ other ∈ before, ∀ others, holds other others → rank source label < rank other others) ∧
        ∀ other ∈ after, ∀ others, holds other others → rank source label ≤ rank other others := by
  simp only [isFirstLeast_filterMap_iff]
  constructor
  · intro found
    obtain ⟨item, ⟨before, source, after, split, given, greater, atLeast⟩, rfl⟩ := found
    obtain ⟨own, ranked⟩ := reads.sound given
    refine ⟨before, source, after, split, own, ?_, ?_⟩
    · intro other member others also
      obtain ⟨item', given', rfl⟩ := reads.complete also
      rw [← ranked, ← (reads.sound given').2]
      exact greater other member item' given'
    · intro other member others also
      obtain ⟨item', given', rfl⟩ := reads.complete also
      rw [← ranked, ← (reads.sound given').2]
      exact atLeast other member item' given'
  · intro decides
    obtain ⟨before, source, after, split, own, greater, atLeast⟩ := decides
    obtain ⟨item, given, rfl⟩ := reads.complete own
    refine ⟨item, ⟨before, source, after, split, given, ?_, ?_⟩, rfl⟩
    · intro other member item' given'
      obtain ⟨also, ranked'⟩ := reads.sound given'
      rw [(reads.sound given).2, ranked']
      exact greater other member _ also
    · intro other member item' given'
      obtain ⟨also, ranked'⟩ := reads.sound given'
      rw [(reads.sound given).2, ranked']
      exact atLeast other member _ also

omit [LinearOrder Key] in
/-- Nothing is read exactly if no source holds any label. -/
theorem filterMap_eq_nil_iff :
    sources.filterMap read = [] ↔ ∀ source ∈ sources, ∀ label, ¬ holds source label := by
  rw [List.filterMap_eq_nil_iff]
  constructor
  · intro nothing source member label own
    obtain ⟨item, given, -⟩ := reads.complete own
    cases (nothing source member).symm.trans given
  · intro none_ source member
    rw [Option.eq_none_iff_forall_ne_some]
    intro item given
    exact none_ source member _ (reads.sound given).1

end Reads

/-- What is read off some sources does not depend on those that give nothing. -/
theorem filterMap_congr_of_filter {read : Source → Option Item} {matters : Source → Bool}
    (silent : ∀ source item, read source = some item → matters source)
    {first second : List Source} (same : first.filter matters = second.filter matters) :
    first.filterMap read = second.filterMap read := by
  have reduced (sources : List Source) :
      sources.filterMap read = (sources.filter matters).filterMap read := by
    rw [List.filterMap_filter]
    refine List.filterMap_congr fun source _ => ?_
    split
    · rfl
    · next other =>
        rw [Option.eq_none_iff_forall_ne_some]
        intro item given
        exact other (silent source item given)
  rw [reduced, same, ← reduced]

end ModelAssist.Selection
