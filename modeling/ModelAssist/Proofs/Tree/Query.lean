import Mathlib.Data.List.Induction
import ModelAssist.Proofs.Tree.Layout
import ModelAssist.Tree.Query

/-!
# What queries capture

A query captures what its patterns match anywhere in a tree (`Query.mem_captures_iff`): that every
capture is kept once, under its name, and that all are sorted, loses none of them.  A pattern that
captures nothing but its innermost node gives away the types of the nodes above what it captures
(`Pattern.kinds_of_matchesAt`), and without roles it captures wherever these types occur
(`Pattern.exists_matchesAt`).
-/

namespace ModelAssist.Tree

variable {tree : Node}

namespace Place.IsIn

theorem of_mem_children {place below : Place} (inside : place.IsIn tree)
    (member : below ∈ place.children) : below.IsIn tree := by
  obtain ⟨index, known, rfl⟩ := List.mem_mapIdx.mp member
  exact .child inside (List.getElem?_eq_getElem known)

/-- The steps from the root tell a place. -/
theorem eq_of_isSame {one two : Place} (first : one.IsIn tree) (second : two.IsIn tree)
    (same : one.isSame two) : one = two := by
  obtain ⟨node, turns⟩ := one
  obtain ⟨node', turns'⟩ := two
  replace same := of_decide_eq_true same
  simp only [steps] at same
  induction turns generalizing node node' turns' with
  | nil =>
      obtain rfl : turns' = [] := List.map_eq_nil_iff.mp same.symm
      cases first
      cases second
      rfl
  | cons turn rest ih =>
      obtain ⟨turn', rest', rfl, index, later⟩ := List.map_eq_cons_iff.mp same.symm
      obtain ⟨parentInside, found⟩ := first.of_child
      obtain ⟨parentInside', found'⟩ := second.of_child
      obtain ⟨parent, rfl⟩ := Place.mk.inj (ih _ parentInside _ _ parentInside' later.symm)
      rw [← parent, index, found] at found'
      obtain ⟨parent', index'⟩ := turn
      cases turn'
      cases parent
      cases index
      rw [Option.some.inj found']

end Place.IsIn

namespace Capture

/-- The count of bytes of a captured node; it is negative if the node ends before it starts. -/
def span (capture : Capture) : Int :=
  (capture.place.info.endByte : Int) - capture.place.info.startByte

variable {captures found : List Capture} {capture : Capture}

/-- Of two captures with one name, at one place of a tree, it does not matter which is kept. -/
theorem mem_add_iff (inside : ∀ other ∈ captures, other.place.IsIn tree)
    (also : capture.place.IsIn tree) {other : Capture} :
    other ∈ add captures capture ↔ other ∈ captures ∨ other = capture := by
  rw [add]
  split
  · next known =>
      obtain ⟨twin, member, same⟩ := List.any_eq_true.mp known
      simp only [Bool.and_eq_true, decide_eq_true_eq] at same
      have place := (inside twin member).eq_of_isSame also same.2
      have : twin = capture := by
        cases twin
        cases capture
        simp_all
      constructor
      · exact Or.inl
      · rintro (kept | rfl)
        · exact kept
        · rwa [← this]
  · rw [List.mem_append, List.mem_singleton]

theorem mem_foldl_add_iff (inside : ∀ other ∈ captures, other.place.IsIn tree)
    (also : ∀ other ∈ found, other.place.IsIn tree) :
    capture ∈ found.foldl add captures ↔ capture ∈ captures ∨ capture ∈ found := by
  induction found generalizing captures with
  | nil => simp
  | cons first found ih =>
      have here := also first List.mem_cons_self
      have all (other : Capture) (member : other ∈ add captures first) : other.place.IsIn tree := by
        rcases (mem_add_iff inside here).mp member with kept | rfl
        · exact inside other kept
        · exact here
      rw [List.foldl_cons, ih all fun other later => also other (List.mem_cons_of_mem _ later),
        mem_add_iff inside here, List.mem_cons, or_assoc]

theorem name_mem_names (member : capture ∈ captures) : capture.name ∈ names captures := by
  induction captures using List.reverseRecOn with
  | nil => cases member
  | append_singleton captures last ih =>
      have step : names (captures ++ [last]) =
          if (names captures).contains last.name then names captures
          else names captures ++ [last.name] := by
        simp only [names, List.foldl_append, List.foldl_cons, List.foldl_nil]
        rfl
      rw [step]
      rcases List.mem_append.mp member with earlier | here
      · split
        · exact ih earlier
        · exact List.mem_append_left _ (ih earlier)
      · rw [List.mem_singleton.mp here]
        split
        · next known => exact List.contains_iff_mem.mp known
        · exact List.mem_append_right _ List.mem_cons_self

/-- Grouping the captures by name loses none. -/
theorem mem_grouped_iff : capture ∈ grouped captures ↔ capture ∈ captures := by
  simp only [grouped, List.mem_flatMap, List.mem_filter, decide_eq_true_eq]
  constructor
  · rintro ⟨_, _, member, _⟩
    exact member
  · intro member
    exact ⟨capture.name, name_mem_names member, member, rfl⟩

end Capture

namespace Pattern

/-- What a pattern captures lies at or below the place where it matches. -/
theorem isIn_of_matchesAt {pattern : Pattern} {place : Place} {found : List Capture}
    {capture : Capture} (inside : place.IsIn tree) (matched : found ∈ pattern.matchesAt place)
    (member : capture ∈ found) : capture.place.IsIn tree := by
  induction pattern generalizing place found with
  | leaf kind names =>
      rw [matchesAt] at matched
      split at matched
      · rw [List.mem_singleton.mp matched] at member
        obtain ⟨name, -, rfl⟩ := List.mem_map.mp member
        exact inside
      · cases matched
  | withChild kind role child names ih =>
      rw [matchesAt] at matched
      split at matched
      · obtain ⟨below, among, further⟩ := List.mem_flatMap.mp matched
        obtain ⟨rest, furtherMatched, rfl⟩ := List.mem_map.mp further
        rcases List.mem_append.mp member with here | deeper
        · obtain ⟨name, -, rfl⟩ := List.mem_map.mp here
          exact inside
        · exact ih (inside.of_mem_children (List.mem_of_mem_filter among)) furtherMatched deeper
      · cases matched

end Pattern

/-- **A query captures what its patterns match anywhere in the tree.** -/
theorem Query.mem_captures_iff {query : Query} {capture : Capture} :
    capture ∈ query.captures (Place.root tree) ↔
      ∃ place : Place, place.IsIn tree ∧
        ∃ pattern ∈ query, ∃ found ∈ pattern.matchesAt place, capture ∈ found := by
  have listed {capture : Capture} :
      (capture ∈ (Place.root tree).subtree.flatMap fun below =>
        query.flatMap fun pattern => (pattern.matchesAt below).flatten) ↔
      ∃ place : Place, place.IsIn tree ∧
        ∃ pattern ∈ query, ∃ found ∈ pattern.matchesAt place, capture ∈ found := by
    simp only [List.mem_flatMap, List.mem_flatten, Place.mem_subtree_root_iff]
  have inside (other : Capture) (member : other ∈ (Place.root tree).subtree.flatMap fun below =>
      query.flatMap fun pattern => (pattern.matchesAt below).flatten) : other.place.IsIn tree := by
    obtain ⟨place, inside, pattern, -, found, matched, among⟩ := listed.mp member
    exact pattern.isIn_of_matchesAt inside matched among
  rw [captures, List.mem_mergeSort, Capture.mem_grouped_iff, found,
    Capture.mem_foldl_add_iff (by simp) inside, listed]
  simp

namespace Pattern

/-- The types of the nodes of a pattern, innermost first. -/
def path : Pattern → List String
  | .leaf kind _ => [kind]
  | .withChild kind _ child _ => child.path ++ [kind]

/-- The names that a pattern gives to its innermost node. -/
def names : Pattern → List String
  | .leaf _ names => names
  | .withChild _ _ child _ => child.names

/-- Holds of the patterns that capture nothing but their innermost node. -/
def isInmost : Pattern → Bool
  | .leaf _ _ => true
  | .withChild _ _ child names => names.isEmpty && child.isInmost

/-- Holds of the patterns that ask for no roles. -/
def isRoleless : Pattern → Bool
  | .leaf _ _ => true
  | .withChild _ role child _ => role.isNone && child.isRoleless

variable {pattern : Pattern}

/-- From what such a pattern captures on, the types on the way up are those of the pattern, and then
those above the place where it matches. -/
theorem kinds_of_matchesAt {place : Place} {found : List Capture} {capture : Capture}
    (inmost : pattern.isInmost) (matched : found ∈ pattern.matchesAt place)
    (member : capture ∈ found) :
    capture.name ∈ pattern.names ∧
      capture.place.selfAndAbove.map Place.kind =
        pattern.path ++ (Place.ancestorsOf place.above).map Place.kind := by
  induction pattern generalizing place found with
  | leaf kind names =>
      rw [matchesAt] at matched
      split at matched
      · next fits =>
          rw [List.mem_singleton.mp matched] at member
          obtain ⟨name, among, rfl⟩ := List.mem_map.mp member
          exact ⟨among, by rw [Place.selfAndAbove, List.map_cons, fits]; rfl⟩
      · cases matched
  | withChild kind role child names ih =>
      rw [isInmost, Bool.and_eq_true, List.isEmpty_iff] at inmost
      obtain ⟨rfl, inmost⟩ := inmost
      rw [matchesAt] at matched
      split at matched
      · next fits =>
          obtain ⟨below, among, further⟩ := List.mem_flatMap.mp matched
          obtain ⟨rest, furtherMatched, rfl⟩ := List.mem_map.mp further
          obtain ⟨index, known, rfl⟩ := List.mem_mapIdx.mp (List.mem_of_mem_filter among)
          obtain ⟨named, kinds⟩ := ih inmost furtherMatched member
          refine ⟨named, ?_⟩
          rw [kinds, path, List.append_assoc, ← fits]
          rfl
      · cases matched

/-- A pattern without roles captures wherever the types on the way up are its own. -/
theorem exists_matchesAt {word : Place} {rest : List String} (roleless : pattern.isRoleless)
    (inside : word.IsIn tree)
    (along : word.selfAndAbove.map Place.kind = pattern.path ++ rest) :
    ∃ place : Place, place.IsIn tree ∧ (Place.ancestorsOf place.above).map Place.kind = rest ∧
      ∃ found ∈ pattern.matchesAt place, ∀ name ∈ pattern.names, ⟨name, word⟩ ∈ found := by
  induction pattern generalizing rest with
  | leaf kind names =>
      obtain ⟨fits, above⟩ := List.cons.inj along
      refine ⟨word, inside, above, names.map (⟨·, word⟩), ?_, fun name among =>
        List.mem_map_of_mem among⟩
      rw [matchesAt, if_pos fits]
      exact List.mem_singleton_self _
  | withChild kind role child names ih =>
      rw [isRoleless, Bool.and_eq_true, Option.isNone_iff_eq_none] at roleless
      obtain ⟨rfl, roleless⟩ := roleless
      rw [path, List.append_assoc] at along
      obtain ⟨⟨node, turns⟩, below, above, found, matched, all⟩ := ih roleless along
      cases turns with
      | nil => cases above
      | cons turn turns =>
          obtain ⟨fits, higher⟩ := List.cons.inj above
          obtain ⟨parentInside, isChild⟩ := below.of_child
          obtain ⟨known, rfl⟩ := List.getElem?_eq_some_iff.mp isChild
          let parent : Place := ⟨turn.node, turns⟩
          refine ⟨parent, parentInside, higher, names.map (⟨·, parent⟩) ++ found, ?_,
            fun name among => List.mem_append_right _ (all name among)⟩
          rw [matchesAt, if_pos fits, List.mem_flatMap]
          refine ⟨_, List.mem_filter.mpr ⟨List.mem_mapIdx.mpr ⟨turn.index, known, rfl⟩, rfl⟩, ?_⟩
          exact List.mem_map_of_mem matched

end Pattern

end ModelAssist.Tree
