import Mathlib.Data.List.Induction
import ModelAssist.Completion.Item

/-!
# Which items are offered

Of the items that a context admits those are offered whose labels match what was typed, and of
several with one label the first (`CompletionItem.mem_filtered_iff`), so no label is offered twice.
-/

namespace ModelAssist.CompletionItem

variable {typed : String} {items : List CompletionItem}

/-- One more item is offered if it matches and its label was not offered before. -/
theorem filtered_concat (items : List CompletionItem) (last : CompletionItem) :
    filtered typed (items ++ [last]) =
      if last.label ∈ (filtered typed items).map (·.label) ∨ ¬ matchesTyped typed last.label then
        filtered typed items
      else filtered typed items ++ [last] := by
  rw [filtered, List.foldl_append, List.foldl_cons, List.foldl_nil, ← filtered]
  refine if_congr ?_ rfl rfl
  simp only [Bool.or_eq_true, List.any_eq_true, decide_eq_true_eq, Bool.not_eq_true', List.mem_map,
    Bool.not_eq_true]

/-- No label is offered twice. -/
theorem nodup_labels_filtered (typed : String) (items : List CompletionItem) :
    ((filtered typed items).map (·.label)).Nodup := by
  induction items using List.reverseRecOn with
  | nil => exact List.nodup_nil
  | append_singleton items last ih =>
      rw [filtered_concat]
      split
      · exact ih
      · next fresh =>
          rw [List.map_append, List.map_singleton, List.nodup_append]
          refine ⟨ih, List.pairwise_singleton _ _, ?_⟩
          rintro label member other alone rfl
          rw [List.mem_singleton.mp alone] at member
          exact fresh (Or.inl member)

/-- Where of every label that fits the first item is kept, these are the labels that are kept. -/
private theorem mem_labels_of_first {kept : List CompletionItem} (fits : String → Prop)
    (first : ∀ item, item ∈ kept ↔
      fits item.label ∧ items.find? (·.label = item.label) = some item) {label : String} :
    label ∈ kept.map (·.label) ↔ fits label ∧ (items.find? (·.label = label)).isSome := by
  rw [List.mem_map, Option.isSome_iff_exists]
  constructor
  · rintro ⟨item, member, rfl⟩
    obtain ⟨fitting, found⟩ := (first item).mp member
    exact ⟨fitting, item, found⟩
  · rintro ⟨fitting, item, found⟩
    have same : item.label = label := by simpa using List.find?_some found
    exact ⟨item, (first item).mpr (by rw [same]; exact ⟨fitting, found⟩), same⟩

/-- **The first item of every label that matches is offered.** -/
theorem mem_filtered_iff {item : CompletionItem} :
    item ∈ filtered typed items ↔
      matchesTyped typed item.label ∧ items.find? (·.label = item.label) = some item := by
  induction items using List.reverseRecOn generalizing item with
  | nil => simp [filtered]
  | append_singleton items last ih =>
      have known : last.label ∈ (filtered typed items).map (·.label) ↔
          matchesTyped typed last.label ∧ (items.find? (·.label = last.label)).isSome :=
        mem_labels_of_first (matchesTyped typed ·) fun _ => ih
      simp only [filtered_concat, known, List.find?_append, List.find?_singleton]
      by_cases same : last.label = item.label
      · -- The last item counts if no item before it has its label.
        simp only [same, decide_true, if_true]
        cases found : items.find? (·.label = item.label) with
        | some first =>
            have absorbed : matchesTyped typed item.label ∧ (some first).isSome ∨
                ¬ matchesTyped typed item.label := by
              by_cases fits : matchesTyped typed item.label
              · exact Or.inl ⟨fits, rfl⟩
              · exact Or.inr fits
            rw [if_pos absorbed, ih, found, Option.some_or]
        | none =>
            by_cases fits : matchesTyped typed item.label
            · have fresh : item ∉ filtered typed items := by
                rw [ih, found]
                simp
              simp [fits, fresh, eq_comm]
            · simp [fits, ih]
      · have other : item ≠ last := fun equal => same (congrArg label equal).symm
        have skipped : (items.find? (·.label = item.label)).or
            (if (decide (last.label = item.label)) = true then some last else none) =
              items.find? (·.label = item.label) := by
          simp [same]
        rw [skipped, ← ih]
        split
        · exact Iff.rfl
        · simp [other]

/-- The labels that are offered are those of the items that match. -/
theorem mem_labels_filtered {label : String} :
    label ∈ (filtered typed items).map (·.label) ↔
      label ∈ items.map (·.label) ∧ matchesTyped typed label := by
  rw [mem_labels_of_first (matchesTyped typed ·) fun _ => mem_filtered_iff, and_comm,
    List.find?_isSome, List.mem_map]
  simp only [decide_eq_true_eq]

/-- Holds if the first item of every label is ranked no higher than the others with that label. -/
def FirstLeast (rank : CompletionItem → Nat) (items : List CompletionItem) : Prop :=
  ∀ ⦃label item⦄, items.find? (·.label = label) = some item →
    ∀ other ∈ items, other.label = label → rank item ≤ rank other

namespace FirstLeast

variable {rank : CompletionItem → Nat}

/-- Items of one rank stand in the order of their first occurrences. -/
theorem of_const (height : Nat) (const : ∀ item ∈ items, rank item = height) :
    FirstLeast rank items := by
  intro label item found other member _
  have same := const item (List.mem_of_find?_eq_some found)
  exact Nat.le_of_eq (same.trans (const other member).symm)

/-- Items may be followed by others that rank no lower than any of them. -/
theorem append {front back : List CompletionItem} (first : FirstLeast rank front)
    (second : FirstLeast rank back)
    (ascends : ∀ item ∈ front, ∀ other ∈ back, rank item ≤ rank other) :
    FirstLeast rank (front ++ back) := by
  intro label item found other member same
  rw [List.find?_append, Option.or_eq_some_iff] at found
  rcases found with inFront | ⟨notInFront, inBack⟩
  · rcases List.mem_append.mp member with other' | other'
    · exact first inFront other other' same
    · exact ascends item (List.mem_of_find?_eq_some inFront) other other'
  · rcases List.mem_append.mp member with other' | other'
    · exact absurd same (by simpa using List.find?_eq_none.mp notInFront other other')
    · exact second inBack other other' same

/-- The groups of items may come in any order if a group is ranked by the first place of its key;
a key may stand in several places. -/
theorem flatMap {key : Type} [BEq key] [LawfulBEq key] {keys : List key}
    {group : key → List CompletionItem} (base : Nat)
    (ranked : ∀ entry ∈ keys, ∀ item ∈ group entry, rank item = base + keys.idxOf entry) :
    FirstLeast rank (keys.flatMap group) := by
  intro label item found other member same
  rw [List.find?_flatMap, List.findSome?_eq_some_iff] at found
  obtain ⟨before, entry, after, split, inGroup, notBefore⟩ := found
  obtain ⟨entry', listed, other'⟩ := List.mem_flatMap.mp member
  rw [ranked entry (by simp [split]) item (List.mem_of_find?_eq_some inGroup),
    ranked entry' listed other other']
  have fresh : entry' ∉ before := by
    intro earlier
    exact absurd same (by simpa using List.find?_eq_none.mp (notBefore entry' earlier) other other')
  have atMost : keys.idxOf entry ≤ before.length := by
    rw [split, List.idxOf_append]
    split
    · next earlier => exact Nat.le_of_lt (List.idxOf_lt_length_iff.mpr earlier)
    · simp
  have atLeast : before.length ≤ keys.idxOf entry' := by
    rw [split, List.idxOf_append, if_neg fresh]
    omega
  omega

end FirstLeast

end ModelAssist.CompletionItem
