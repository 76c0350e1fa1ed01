import Mathlib.Tactic.ByContra
import ModelAssist.Proofs.FileStore

/-!
# Where paths lead in a tree

In a tree directories stand above every entry, so whatever exists is reached through directories
only, with symbolic links on the way or without (`FileStore.IsTree.isDirectory_of_lookup?`).  What
is put into a part of a tree that was empty does not change where the other paths lead
(`FileStore.follow_of_outside`).
-/

namespace ModelAssist.FileStore

variable {store after : FileStore} {root path above target : Path} {fuel : Nat}

/-- Holds of the stores in which directories stand above every entry. -/
def IsTree (store : FileStore) : Prop :=
  ∀ ⦃path other : Path⦄, other.isAncestorOf path → other ≠ path → store.entry? path ≠ none →
    store.entry? other = some .directory

/-- A walk may be halted where a part of it leads to. -/
theorem follow_halted (store : FileStore) (fuel : Nat) (reached : Path)
    (walked rest : List String) :
    ∃ left, store.follow fuel reached (walked ++ rest) =
      store.follow left (store.follow fuel reached walked) rest := by
  induction fuel, reached, walked using follow_induction store with
  | nil fuel reached => exact ⟨fuel, by rw [List.nil_append, follow_nil]⟩
  | link fuel reached part walked target linked ih =>
      obtain ⟨left, halted⟩ := ih
      refine ⟨left, ?_⟩
      rw [List.cons_append, follow_link fuel _ linked, ← List.append_assoc, halted,
        follow_link fuel _ linked]
  | onward fuel reached part walked straight ih =>
      obtain ⟨left, halted⟩ := ih
      refine ⟨left, ?_⟩
      rw [List.cons_append, follow_onward _ straight, halted, follow_onward _ straight]

/-- Where nothing is, a path leads on as it is written. -/
theorem follow_of_empty {reached : Path} (rest : List String)
    (empty : ∀ below, below ≠ [] → store.entry? (reached.descend below) = none) :
    store.follow fuel reached rest = reached.descend rest := by
  have walk := store.follow_append fuel reached rest [] fun start named _ target linked => by
    rw [empty start named] at linked
    cases linked
  rwa [List.append_nil, follow_nil] at walk

/-- Nothing is below what is no directory. -/
theorem IsTree.entry?_below (tree : store.IsTree) (other : store.entry? path ≠ some .directory)
    {below : List String} (named : below ≠ []) : store.entry? (path.descend below) = none := by
  by_contra there
  refine other (tree (Path.isAncestorOf_descend path below) (fun same => named ?_) there)
  rw [← Path.descend_nil path, Path.descend_descend, Path.descend_inj] at same
  simpa using same.symm

/-- Directories stand above a path whose parent is one. -/
theorem IsTree.entry?_above_parent (tree : store.IsTree)
    (parent : store.entry? path.parent = some .directory) (higher : above.isAncestorOf path)
    (strict : above ≠ path) : store.entry? above = some .directory := by
  by_cases same : above = path.parent
  · rw [same, parent]
  · exact tree (Path.isAncestorOf_parent higher strict) same (by simp [parent])

/-- What exists lies below directories. -/
theorem IsTree.isDirectory_of_lookup? (tree : store.IsTree) (there : store.lookup? path ≠ none)
    (higher : above.isAncestorOf path) (strict : above ≠ path) : store.isDirectory above := by
  obtain ⟨rest, rfl⟩ := Path.isAncestorOf_iff.mp higher
  have named : rest ≠ [] := by
    rintro rfl
    exact strict (Path.descend_nil above).symm
  -- below anything else the walk would go on as it is written, and find nothing
  by_contra other
  rw [isDirectory, decide_eq_true_eq, lookup?] at other
  obtain ⟨left, halted⟩ := store.follow_halted linkLimit ⟨above.anchor, []⟩ above.parts rest
  have leads : store.resolve (above.descend rest) = (store.resolve above).descend rest :=
    halted.trans (follow_of_empty rest fun below => tree.entry?_below other)
  rw [lookup?, leads] at there
  exact there (tree.entry?_below other named)

/-- A path above a directory leads to a directory. -/
theorem IsTree.isDirectory_above (tree : store.IsTree) (there : store.isDirectory path)
    (higher : above.isAncestorOf path) : store.isDirectory above := by
  by_cases same : above = path
  · exact same ▸ there
  · refine tree.isDirectory_of_lookup? (fun missing => ?_) higher same
    simp [isDirectory, missing] at there

/-- Paths lead where they led as long as a store is what it was outside a part that was empty. -/
theorem follow_of_outside
    (same : ∀ path, ¬ root.isAncestorOf path → after.entry? path = store.entry? path)
    (empty : ∀ path, root.isAncestorOf path → store.entry? path = none) {reached : Path}
    {rest : List String} (outside : ¬ root.isAncestorOf (store.follow fuel reached rest)) :
    after.follow fuel reached rest = store.follow fuel reached rest := by
  induction fuel, reached, rest using follow_induction store with
  | nil fuel reached => rw [follow_nil, follow_nil]
  | link fuel reached part rest target linked ih =>
      have apart : ¬ root.isAncestorOf (reached.child part) := by
        intro inside
        rw [empty _ inside] at linked
        cases linked
      rw [follow_link fuel rest linked] at outside ⊢
      rw [follow_link fuel rest ((same _ apart).trans linked), ih outside]
  | onward fuel reached part rest straight ih =>
      rw [follow_onward rest straight] at outside ⊢
      -- a walk into the empty part would end in it
      have apart : ¬ root.isAncestorOf (reached.child part) := by
        intro inside
        rw [follow_of_empty rest fun below _ =>
          empty _ (Path.isAncestorOf_trans inside (Path.isAncestorOf_descend _ below))] at outside
        exact outside (Path.isAncestorOf_trans inside (Path.isAncestorOf_descend _ rest))
      rw [follow_onward rest (straight.imp_right fun unlinked target linked =>
        unlinked target ((same _ apart) ▸ linked)), ih outside]

/-- No links stand above an entry of a tree. -/
theorem IsTree.unlinked_above (tree : store.IsTree) (there : store.entry? path ≠ none)
    (higher : above.isAncestorOf path) (strict : above ≠ path) : store.Unlinked above := by
  intro target linked
  rw [tree higher strict there] at linked
  cases linked

/-- A regular file of a tree can be read under its own path. -/
theorem IsTree.read_of_file (tree : store.IsTree) {content : List UInt8}
    (there : store.entry? path = some (.file content)) : store.read path = .ok content := by
  have leads : store.resolve path = path := resolve_of_unlinked fun above higher target linked => by
    by_cases same : above = path
    · rw [same, there] at linked
      cases linked
    · exact tree.unlinked_above (by simp [there]) higher same target linked
  rw [read_eq_ok_iff, lookup?, leads, there]

/-- A link leads to where its target leads with one link less. -/
theorem IsTree.resolve_of_link (tree : store.IsTree) (named : path.parts ≠ [])
    (linked : store.entry? path = some (.link target)) :
    store.resolve path = store.follow (linkLimit - 1) ⟨target.anchor, []⟩ target.parts := by
  have last : store.entry? (path.parent.child path.name) = some (.link target) := by
    rw [Path.parent_child_name named, linked]
  have whole : path.parent.parts ++ [path.name] = path.parts :=
    congrArg Path.parts (Path.parent_child_name named)
  have walk := store.follow_append linkLimit ⟨path.anchor, []⟩ path.parent.parts [path.name]
    fun start _ shorter => by
      have higher := (Path.descend_isAncestorOf_iff ⟨path.anchor, []⟩).mpr shorter
      obtain ⟨higher, strict⟩ := (Path.isAncestorOf_parent_iff named).mp higher
      exact tree.unlinked_above (by simp [linked]) higher strict
  rw [whole] at walk
  rw [resolve, walk]
  exact (follow_link 39 [] last).trans (by rw [List.append_nil]; rfl)

end ModelAssist.FileStore
