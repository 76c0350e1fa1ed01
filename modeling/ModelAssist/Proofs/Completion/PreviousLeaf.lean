import ModelAssist.Completion.Context
import ModelAssist.Proofs.Tree.Leaf

/-!
# The leaf before a word

The search for the leaf before a word starts at the innermost node that covers the last character
before it.  From an extra node it goes back to the last leaf before that node that is not extra;
from any other node it takes the last leaf under it.  That is the leaf wanted if the character
belongs to a leaf.  An inner node is where the character belongs to none of its children, and its
last leaf may lie behind the character: `CompletionContext.previousLeaf?_iff` says when the search
is right.
-/

namespace ModelAssist.CompletionContext

open ModelAssist.Tree

variable {tree : Node} {place : Place}

/-- Holds of the leaves that do not stand anywhere, like comments do. -/
def isPlain (leaf : Place) : Bool :=
  !leaf.info.isExtra

/-- The place before a place ends the leaves before it. -/
theorem placeBefore?_cases (inside : place.IsIn tree) :
    placeBefore? place = none ∧ Place.leavesBefore place.above = [] ∨
      ∃ before, placeBefore? place = some before ∧ before.IsIn tree ∧
        Place.leavesBefore place.above = Place.leavesBefore before.above ++ before.leaves := by
  obtain ⟨node, above⟩ := place
  induction above generalizing node with
  | nil => exact .inl ⟨rfl, rfl⟩
  | cons turn rest ih =>
      obtain ⟨parent, index⟩ := turn
      obtain ⟨parentInside, found⟩ := inside.of_child
      cases index with
      | zero =>
          -- A first child has before it what its parent has.
          have same : placeBefore? ⟨node, ⟨parent, 0⟩ :: rest⟩ = placeBefore? ⟨parent, rest⟩ := rfl
          rw [same, Place.leavesBefore, List.take_zero]
          simpa [Node.leavesOfChildren, Node.placesOfChildren] using ih parent parentInside
      | succ index =>
          have known : index < parent.children.length :=
            Nat.lt_of_succ_lt (List.getElem?_eq_some_iff.mp found).1
          have there : parent.children[index]? = some parent.children[index] :=
            List.getElem?_eq_getElem known
          refine .inr ⟨Place.childAt ⟨parent, rest⟩ index parent.children[index], ?_,
            .child parentInside there, ?_⟩
          · simp [placeBefore?, Place.selfAndAbove, Place.previousSibling?, there, Place.childAt]
          · rw [Place.leavesBefore, List.take_add_one, there, Option.toList_some,
              Node.leavesOfChildren_append, Node.leavesOfChildren_cons, ← List.append_assoc]
            simp [Node.leavesOfChildren, Node.placesOfChildren, Place.leavesBefore, Place.childAt,
              Nat.min_eq_left (Nat.le_of_lt known)]

/-- **Skipping goes back leaf by leaf.** -/
theorem skipExtras_eq {fuel : Nat} (inside : place.IsIn tree)
    (enough : (Place.leavesBefore place.above).length < fuel) :
    skipExtras fuel place =
      if place.info.isExtra then ((Place.leavesBefore place.above).filter isPlain).getLast?
      else some place.lastLeaf := by
  induction fuel generalizing place with
  | zero => exact absurd enough (Nat.not_lt_zero _)
  | succ fuel ih =>
      rw [skipExtras]
      by_cases extra : place.info.isExtra
      · rw [if_pos extra, if_pos extra]
        rcases placeBefore?_cases inside with ⟨nothing, none_⟩ | ⟨before, found, inside', leaves⟩
        · rw [nothing, none_]
          rfl
        · rw [leaves, Place.leavesBefore_lastLeaf] at enough ⊢
          have again := ih inside'.lastLeaf (by simpa using enough)
          rw [Place.lastLeaf_of_isLeaf before.isLeaf_lastLeaf] at again
          rw [found, List.filter_append]
          simp only [again]
          by_cases extra' : before.lastLeaf.info.isExtra
          · simp [extra', isPlain]
          · simp [extra', isPlain]
      · rw [if_neg extra, if_neg extra]

/-- Holds if a leaf is the last one that is not extra and starts at a byte or before it; without a
leaf, if there is none such. -/
def IsLastAt (tree : Node) (byte : Nat) : Option Place → Prop
  | some leaf =>
    leaf ∈ (Place.root tree).leaves ∧ isPlain leaf ∧ leaf.info.startByte ≤ byte ∧
      ∀ other ∈ (Place.root tree).leaves, isPlain other → other.info.startByte ≤ byte →
        other.info.startByte ≤ leaf.info.startByte
  | none => ∀ leaf ∈ (Place.root tree).leaves, isPlain leaf → byte < leaf.info.startByte

section Innermost

variable {byte : Nat} (nested : tree.IsNested)
  (innermost : place.IsInnermost tree (Node.coversByte byte))
include nested innermost

/-- Of the leaves that start at a byte or before it, none comes after the innermost node there. -/
theorem before_or_under {leaf : Place} (among : leaf ∈ (Place.root tree).leaves)
    (early : leaf.info.startByte ≤ byte) :
    leaf ∈ Place.leavesBefore place.above ∨ leaf ∈ place.leaves := by
  rw [innermost.inside.leaves_eq, List.mem_append, List.mem_append] at among
  refine among.resolve_right fun later => ?_
  rcases innermost.isRoot_or_fits with rfl | covers
  · cases later
  · have finish : byte < place.node.info.endByte := by
      simpa using (Bool.and_eq_true_iff.mp covers).2
    have start := innermost.inside.after nested later
    exact absurd (Nat.le_trans start early) (Nat.not_le_of_lt finish)

/-- A leaf before a place starts no later than the place. -/
theorem start_le_of_before {leaf : Place} (among : leaf ∈ Place.leavesBefore place.above) :
    leaf.info.startByte ≤ byte := by
  rcases innermost.isRoot_or_fits with rfl | covers
  · cases among
  · have start : place.node.info.startByte ≤ byte := by
      simpa using (Bool.and_eq_true_iff.mp covers).1
    obtain ⟨ordered, finish⟩ := innermost.inside.before nested among
    exact Nat.le_trans ordered (Nat.le_trans finish start)

omit nested in
/-- The leaves before a place are leaves of the tree. -/
theorem mem_leaves_of_before {leaf : Place} (among : leaf ∈ Place.leavesBefore place.above) :
    leaf ∈ (Place.root tree).leaves := by
  rw [innermost.inside.leaves_eq]
  exact List.mem_append_left _ (List.mem_append_left _ among)

omit nested in
/-- The leaves of a place are leaves of the tree. -/
theorem mem_leaves_of_under {leaf : Place} (among : leaf ∈ place.leaves) :
    leaf ∈ (Place.root tree).leaves := by
  rw [innermost.inside.leaves_eq]
  exact List.mem_append_left _ (List.mem_append_right _ among)

/-- The last leaf under the innermost node is right if it is not extra and does not lie behind. -/
theorem isLastAt_lastLeaf_iff :
    IsLastAt tree byte (some place.lastLeaf) ↔
      isPlain place.lastLeaf ∧ place.lastLeaf.info.startByte ≤ byte := by
  refine ⟨fun last => ⟨last.2.1, last.2.2.1⟩, fun ⟨plain, early⟩ => ⟨?_, plain, early, ?_⟩⟩
  · have last : place.lastLeaf ∈ Place.leavesBefore place.above ++ place.leaves := by
      rw [place.leavesBefore_lastLeaf]
      exact List.mem_append_right _ List.mem_cons_self
    rw [innermost.inside.leaves_eq]
    exact List.mem_append_left _ last
  · intro other among _ early'
    have there : other ∈ Place.leavesBefore place.above ++ place.leaves :=
      List.mem_append.mpr (before_or_under nested innermost among early')
    rw [place.leavesBefore_lastLeaf, List.mem_append, List.mem_singleton] at there
    rcases there with before | rfl
    · obtain ⟨ordered, finish⟩ := innermost.inside.lastLeaf.before nested before
      exact Nat.le_trans ordered finish
    · exact Nat.le_refl _

/-- The last leaf before the innermost node is right if none under that node is better. -/
theorem isLastAt_before_iff :
    IsLastAt tree byte ((Place.leavesBefore place.above).filter isPlain).getLast? ↔
      ∀ leaf ∈ place.leaves, isPlain leaf → leaf.info.startByte ≤ byte →
        ∃ found, ((Place.leavesBefore place.above).filter isPlain).getLast? = some found ∧
          leaf.info.startByte ≤ found.info.startByte := by
  rcases List.eq_nil_or_concat ((Place.leavesBefore place.above).filter isPlain) with
    none_ | ⟨earlier, found, split⟩
  · have absent : ∀ leaf ∈ Place.leavesBefore place.above, ¬ isPlain leaf :=
      fun leaf => List.filter_eq_nil_iff.mp none_ leaf
    rw [none_]
    refine ⟨fun last leaf under plain early => ?_, fun none' leaf among plain => ?_⟩
    · have late := last leaf (mem_leaves_of_under innermost under) plain
      exact absurd early (Nat.not_le_of_lt late)
    · refine Nat.lt_of_not_le fun early => ?_
      rcases before_or_under nested innermost among early with before | under
      · exact absent leaf before plain
      · obtain ⟨_, impossible, -⟩ := none' leaf under plain early
        cases impossible
  · rw [List.concat_eq_append] at split
    have mem_iff : ∀ leaf, leaf ∈ Place.leavesBefore place.above ∧ isPlain leaf ↔
        leaf ∈ earlier ∨ leaf = found := by
      intro leaf
      rw [← List.mem_filter, split, List.mem_append, List.mem_singleton]
    obtain ⟨there, plain⟩ := (mem_iff found).mpr (.inr rfl)
    rw [split, List.getLast?_concat]
    refine ⟨fun last leaf under plain early => ⟨found, rfl, ?_⟩, fun better => ?_⟩
    · exact last.2.2.2 leaf (mem_leaves_of_under innermost under) plain early
    · refine ⟨mem_leaves_of_before innermost there, plain,
        start_le_of_before nested innermost there, fun other among plain' early => ?_⟩
      rcases before_or_under nested innermost among early with before | under
      · have sorted : (earlier ++ [found]).Pairwise fun first second =>
            first.info.startByte ≤ second.info.startByte := by
          have whole := @Place.pairwise_leaves (.root tree) nested
          rw [innermost.inside.leaves_eq, List.append_assoc] at whole
          rw [← split]
          exact (List.pairwise_append.mp whole).1.filter _
        rcases (mem_iff other).mp ⟨before, plain'⟩ with earlier' | rfl
        · exact (List.pairwise_append.mp sorted).2.2 other earlier' found List.mem_cons_self
        · exact Nat.le_refl _
      · obtain ⟨_, same, late⟩ := better other under plain' early
        rwa [← Option.some.inj same] at late

/-- A search that starts at a leaf over the byte is right, whether this leaf is extra or not. -/
theorem isLastAt_of_isLeaf (leaf : place.isLeaf) (covers : place.node.coversByte byte) :
    IsLastAt tree byte
      (if place.info.isExtra then ((Place.leavesBefore place.above).filter isPlain).getLast?
      else some place.lastLeaf) := by
  by_cases extra : place.info.isExtra
  · rw [if_pos extra, isLastAt_before_iff nested innermost, Place.leaves_of_isLeaf leaf]
    intro other same plain
    obtain rfl := List.mem_singleton.mp same
    rw [isPlain, extra] at plain
    cases plain
  · rw [if_neg extra, isLastAt_lastLeaf_iff nested innermost, Place.lastLeaf_of_isLeaf leaf]
    have start : place.node.info.startByte ≤ byte := by
      simpa using (Bool.and_eq_true_iff.mp covers).1
    exact ⟨by simpa [isPlain] using extra, start⟩

end Innermost

/-- The search finds what skipping back from the innermost node comes to: there is fuel for as many
leaves as the tree has. -/
theorem skipExtras_atByte (tree : Node) (byte : Nat) :
    skipExtras (tree.size + 1) (tree.atByte byte) =
      if (tree.atByte byte).info.isExtra then
        ((Place.leavesBefore (tree.atByte byte).above).filter isPlain).getLast?
      else some (tree.atByte byte).lastLeaf := by
  have innermost : (tree.atByte byte).IsInnermost tree (Node.coversByte byte) :=
    Place.isInnermost_descend .root (.inl rfl)
  have whole : (Place.root tree).leaves.length ≤ tree.size := (Place.root tree).length_leaves_le
  rw [innermost.inside.leaves_eq, List.length_append, List.length_append] at whole
  exact skipExtras_eq innermost.inside (by omega)

/-- **The leaf before a word is the last one at or before the character there, unless this character
belongs to no leaf.**  Then it lies in an inner node.  If that node is not extra, its last leaf is
taken, which is right only if that one is not extra and does not lie behind the character; if it is
extra, what lies under it before the character is passed over. -/
theorem previousLeaf?_iff (nested : tree.IsNested) (content : String) (line column : Nat) :
    let before := beforeWord content.toList
      (Text.lineOffset (Text.lines content.toList) line column)
    let byte := Text.byteOffset content.toList (before.length - 1)
    let hit := tree.atByte byte
    let found := previousLeaf? tree content line column
    (before = [] → found = none) ∧
      (before ≠ [] →
        (hit.isLeaf → hit.node.coversByte byte → IsLastAt tree byte found) ∧
        (¬ hit.info.isExtra → found = some hit.lastLeaf ∧
          (IsLastAt tree byte found ↔
            isPlain hit.lastLeaf ∧ hit.lastLeaf.info.startByte ≤ byte)) ∧
        (hit.info.isExtra →
          found = ((Place.leavesBefore hit.above).filter isPlain).getLast? ∧
          (IsLastAt tree byte found ↔
            ∀ leaf ∈ hit.leaves, isPlain leaf → leaf.info.startByte ≤ byte →
              ∃ other, found = some other ∧ leaf.info.startByte ≤ other.info.startByte))) := by
  intro before byte hit found
  refine ⟨fun nothing => ?_, fun some_ => ?_⟩
  · simp only [found, previousLeaf?]
    rw [if_pos (List.isEmpty_iff.mpr nothing)]
  have innermost : hit.IsInnermost tree (Node.coversByte byte) :=
    Place.isInnermost_descend .root (.inl rfl)
  have searched : found = skipExtras (tree.size + 1) hit := by
    simp only [found, previousLeaf?]
    rw [if_neg fun nothing => some_ (List.isEmpty_iff.mp nothing)]
  rw [skipExtras_atByte tree byte] at searched
  refine ⟨fun leaf covers => ?_, fun plain => ?_, fun extra => ?_⟩
  · rw [searched]
    exact isLastAt_of_isLeaf nested innermost leaf covers
  · have plainHit : found = some hit.lastLeaf := searched.trans (if_neg plain)
    refine ⟨plainHit, ?_⟩
    rw [plainHit]
    exact isLastAt_lastLeaf_iff nested innermost
  · have extraHit : found = ((Place.leavesBefore hit.above).filter isPlain).getLast? :=
      searched.trans (if_pos extra)
    refine ⟨extraHit, ?_⟩
    rw [extraHit]
    exact isLastAt_before_iff nested innermost

private def guardNode (kind : String) (start finish : Nat) (children : List Node) : Node :=
  .node ⟨kind, none, start, finish, ⟨0, start⟩, ⟨0, finish⟩, none, false, false, 0, 0⟩ children

/-- A guard, whose text is no node of its own. -/
private def guard : Node :=
  guardNode "guard" 0 4 [guardNode "[" 0 1 [], guardNode "]" 3 4 []]

/-- Inside a guard the leaf found lies behind the cursor. -/
theorem previousLeaf?_guard :
    guard.IsNested ∧
      previousLeaf? guard "[x ]" 0 3 = some (guard.atByte 1).lastLeaf ∧
      (guard.atByte 1).lastLeaf.info.startByte = 3 ∧
      ¬ IsLastAt guard 1 (previousLeaf? guard "[x ]" 0 3) := by
  have leaf (kind : String) (start : Nat) : (guardNode kind start (start + 1) []).IsNested :=
    .node (Nat.le_succ start) nofun .nil nofun
  have nested : guard.IsNested := by
    refine .node (by decide) ?_ ?_ ?_
    · simp [guardNode, Node.info]
    · simp [guardNode, Node.info]
    · simpa using ⟨leaf "[" 0, leaf "]" 3⟩
  obtain ⟨-, some_⟩ := previousLeaf?_iff nested "[x ]" 0 3
  obtain ⟨-, plain, -⟩ := some_ (by decide)
  obtain ⟨found, right⟩ := plain (by decide)
  exact ⟨nested, found, by decide, fun last => absurd (right.mp last).2 (by decide)⟩

end ModelAssist.CompletionContext
