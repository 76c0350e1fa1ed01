import Mathlib.Data.List.Nodup
import ModelAssist.Proofs.Tree.Leaf

/-!
# Outermost places

A walk with a list of pending places meets a tree like a recursion on its nodes: it takes a place of
the type wanted, and otherwise all that lies below the place, child by child (`Place.outermost_eq`).
So it lists the places of the type that lie below no other one, in the order of the text
(`Place.outermost_root`), and none of them twice (`Place.nodup_subtree`).  Where no two places that
meet a condition lie on one way up, the children of these places stand in the text in their order
(`Place.filter_childOf`).
-/

namespace ModelAssist.Tree

open Function (onFun)

theorem Node.placesOfChildren_eq (parent : Node) (above : List Turn) (index : Nat)
    (children : List Node) :
    Node.placesOfChildren parent above index children =
      (children.mapIdx fun number child =>
        (⟨child, ⟨parent, index + number⟩ :: above⟩ : Place)).flatMap Place.subtree := by
  induction children generalizing index with
  | nil => rfl
  | cons child rest ih =>
      rw [placesOfChildren, ih, List.mapIdx_cons, List.flatMap_cons]
      simp only [Nat.add_zero, Nat.add_right_comm, Nat.add_assoc]
      rfl

namespace Place

variable {place child below : Place} {kind : String}

/-- A place comes before all that lies below it, and this comes child by child. -/
theorem subtree_eq (place : Place) : place.subtree = place :: place.children.flatMap subtree := by
  obtain ⟨⟨info, children⟩, above⟩ := place
  rw [subtree, Node.placesUnder, Node.placesOfChildren_eq]
  simp only [Nat.zero_add]
  rfl

theorem size_lt_of_mem_children (among : child ∈ place.children) :
    child.node.size < place.node.size := by
  apply Node.size_lt_of_mem
  rw [← map_node_children]
  exact List.mem_map_of_mem among

/-- What holds of a place if it holds of the places directly below holds of all places. -/
theorem children_induction {motive : Place → Prop}
    (step : ∀ place : Place, (∀ child ∈ place.children, motive child) → motive place)
    (place : Place) : motive place := by
  induction size : place.node.size using Nat.strongRecOn generalizing place with
  | _ count ih =>
      subst size
      exact step place fun child among => ih _ (size_lt_of_mem_children among) child rfl

/-! ### The way up from below -/

theorem selfAndAbove_of_mem_children (among : child ∈ place.children) :
    child.selfAndAbove = child :: place.selfAndAbove := by
  obtain ⟨index, known, rfl⟩ := List.mem_mapIdx.mp among
  rfl

theorem parent?_of_mem_children (among : child ∈ place.children) : child.parent? = some place := by
  obtain ⟨index, known, rfl⟩ := List.mem_mapIdx.mp among
  rfl

/-- The way up from all that lies at or below a place comes by that place. -/
theorem exists_nearer (member : below ∈ place.subtree) :
    ∃ nearer, below.selfAndAbove = nearer ++ place.selfAndAbove := by
  induction place using children_induction with
  | step place ih =>
      rw [subtree_eq, List.mem_cons, List.mem_flatMap] at member
      rcases member with rfl | ⟨child, among, under⟩
      · exact ⟨[], rfl⟩
      · obtain ⟨nearer, way⟩ := ih child among under
        refine ⟨nearer ++ [child], ?_⟩
        rw [way, selfAndAbove_of_mem_children among, List.append_assoc]
        rfl

theorem mem_selfAndAbove_of_mem_subtree (member : below ∈ place.subtree) :
    place ∈ below.selfAndAbove := by
  obtain ⟨nearer, way⟩ := exists_nearer member
  rw [way]
  exact List.mem_append_right _ List.mem_cons_self

/-- A place lies strictly above all that lies at or below its children. -/
theorem mem_ancestorsOf_of_below (among : child ∈ place.children) (under : below ∈ child.subtree) :
    place ∈ ancestorsOf below.above := by
  obtain ⟨nearer, way⟩ := exists_nearer under
  rw [selfAndAbove_of_mem_children among, selfAndAbove] at way
  cases nearer with
  | nil =>
      rw [(List.cons.inj way).2]
      exact List.mem_cons_self
  | cons first rest =>
      rw [(List.cons.inj way).2]
      exact List.mem_append_right _ (List.mem_cons_of_mem _ List.mem_cons_self)

private theorem disjoint_children (place : Place) :
    place.children.Pairwise (onFun List.Disjoint subtree) := by
  rw [List.pairwise_iff_getElem]
  intro first second firstKnown secondKnown less below one two
  -- Both children lie on the way up, at the same depth.
  have same := eq_of_mem_selfAndAbove (mem_selfAndAbove_of_mem_subtree one)
    (mem_selfAndAbove_of_mem_subtree two) (by simp [children, childAt])
  simp only [children, List.getElem_mapIdx, childAt, mk.injEq, List.cons.injEq,
    Turn.mk.injEq] at same
  omega

/-- No place is met twice. -/
theorem nodup_subtree (place : Place) : place.subtree.Nodup := by
  induction place using children_induction with
  | step place ih =>
      rw [subtree_eq, List.nodup_cons, List.nodup_flatMap]
      refine ⟨fun member => ?_, ih, disjoint_children place⟩
      obtain ⟨child, among, under⟩ := List.mem_flatMap.mp member
      obtain ⟨nearer, way⟩ := exists_nearer under
      rw [selfAndAbove_of_mem_children among] at way
      have lengths := congrArg List.length way
      rw [List.length_append, List.length_cons] at lengths
      omega

/-- Holds of a condition that no two places on one way up meet. -/
def Apart (holds : Place → Bool) : Prop :=
  ∀ place above : Place, holds place → above ∈ ancestorsOf place.above → ¬ holds above

/-- No place below one that is picked is picked, if picked places lie apart. -/
theorem Apart.filter_subtree {holds : Place → Bool} (apart : Apart holds) (here : holds place)
    (among : child ∈ place.children) : child.subtree.filter holds = [] := by
  rw [List.filter_eq_nil_iff]
  exact fun below under there =>
    apart below place there (mem_ancestorsOf_of_below among under) here

/-! ### What the walk lists -/

private theorem outermostFrom_append (kind : String) (first second : List Place) :
    outermostFrom kind (first ++ second) =
      outermostFrom kind first ++ outermostFrom kind second := by
  fun_induction outermostFrom kind first with
  | case1 => rfl
  | case2 place rest here ih =>
      rw [List.cons_append, outermostFrom, if_pos here, ih, List.cons_append]
  | case3 place rest other ih =>
      rw [List.cons_append, outermostFrom, if_neg other, ← List.append_assoc, ih]

private theorem outermostFrom_eq (kind : String) (pending : List Place) :
    outermostFrom kind pending = pending.flatMap (outermost kind) := by
  induction pending with
  | nil => rw [outermostFrom, List.flatMap_nil]
  | cons place rest ih =>
      rw [List.flatMap_cons, ← ih, outermost, ← outermostFrom_append, List.singleton_append]

/-- **The walk recurses on the tree.** -/
theorem outermost_eq (kind : String) (place : Place) :
    place.outermost kind =
      if place.kind = kind then [place] else place.children.flatMap (outermost kind) := by
  rw [outermost, outermostFrom]
  split
  · rw [outermostFrom]
  · rw [List.append_nil, outermostFrom_eq]

/-- Holds of the places of the given type that lie below no other such place. -/
def isOutermost (kind : String) (place : Place) : Bool :=
  place.kind = kind && (ancestorsOf place.above).all (·.kind ≠ kind)

theorem isOutermost_iff :
    place.isOutermost kind ↔
      place.kind = kind ∧ ∀ above ∈ ancestorsOf place.above, above.kind ≠ kind := by
  simp [isOutermost]

/-- The outermost places of a kind lie apart. -/
theorem apart_isOutermost (kind : String) : Apart (isOutermost kind) := by
  intro place above outermost member outermost'
  exact (isOutermost_iff.mp outermost).2 above member (isOutermost_iff.mp outermost').1

private theorem outermost_of_free
    (free : ∀ above ∈ ancestorsOf place.above, above.kind ≠ kind) :
    place.outermost kind = place.subtree.filter (isOutermost kind) := by
  induction place using children_induction with
  | step place ih =>
      rw [outermost_eq, subtree_eq]
      split
      · next here =>
          have outermost := isOutermost_iff.mpr ⟨here, free⟩
          have nothing : (place.children.flatMap subtree).filter (isOutermost kind) = [] := by
            rw [List.filter_flatMap, List.flatMap_eq_nil_iff]
            exact fun child among => (apart_isOutermost kind).filter_subtree outermost among
          rw [List.filter_cons_of_pos outermost, nothing]
      · next other =>
          rw [List.filter_cons_of_neg fun outermost => other (isOutermost_iff.mp outermost).1,
            List.filter_flatMap]
          refine List.flatMap_congr fun child among => ih child among ?_
          have way := (List.cons.inj (selfAndAbove_of_mem_children among)).2
          rw [way, selfAndAbove, List.forall_mem_cons]
          exact ⟨other, free⟩

/-- **The walk lists the outermost places of a type in the order of the text.** -/
theorem outermost_root (kind : String) (tree : Node) :
    (Place.root tree).outermost kind = (Place.root tree).subtree.filter (isOutermost kind) :=
  outermost_of_free fun _ member => absurd member List.not_mem_nil

/-! ### Children of the places that meet a condition -/

/-- Holds of the places that meet a condition and lie directly below one that meets another. -/
def childOf (parentHolds holds : Place → Bool) (place : Place) : Bool :=
  holds place && place.parent?.any parentHolds

variable {parentHolds : Place → Bool} (holds : Place → Bool)

theorem Apart.mono {other : Place → Bool} (apart : Apart parentHolds)
    (fewer : ∀ place, other place → parentHolds place) : Apart other :=
  fun place above here member there =>
    apart place above (fewer place here) member (fewer above there)

/-- What lies strictly above a place lies at or above its parent. -/
theorem ancestorsOf_eq {parent : Place} (up : place.parent? = some parent) :
    ancestorsOf place.above = parent.selfAndAbove := by
  obtain ⟨node, above⟩ := place
  cases above with
  | nil => cases up
  | cons turn rest =>
      obtain rfl := Option.some.inj up
      rfl

/-- One step up from two places on one way leads to two places on that way. -/
theorem parent_mem_ancestorsOf {above parent parent' : Place} (up : place.parent? = some parent)
    (up' : above.parent? = some parent') (member : above ∈ ancestorsOf place.above) :
    parent' ∈ ancestorsOf parent.above := by
  have higher : parent' ∈ ancestorsOf above.above := by
    rw [ancestorsOf_eq up']
    exact List.mem_cons_self
  rw [ancestorsOf_eq up, selfAndAbove, List.mem_cons] at member
  rcases member with rfl | member
  · exact higher
  · cases up'' : parent.parent? with
    | none =>
        obtain ⟨node, turns⟩ := parent
        cases turns with
        | nil => cases member
        | cons turn rest => cases up''
    | some next =>
        rw [ancestorsOf_eq up''] at member ⊢
        exact mem_selfAndAbove_trans member (List.mem_cons_of_mem _ higher)

theorem childOf_iff :
    place.childOf parentHolds holds ↔
      holds place ∧ ∃ parent, place.parent? = some parent ∧ parentHolds parent := by
  simp [childOf, Option.any_eq_true]

/-- Children of places that lie apart lie apart. -/
theorem Apart.childOf (apart : Apart parentHolds) : Apart (childOf parentHolds holds) := by
  intro place above here member there
  obtain ⟨-, parent, up, parentHere⟩ := (childOf_iff holds).mp here
  obtain ⟨-, parent', up', parentThere⟩ := (childOf_iff holds).mp there
  exact apart parent parent' parentHere (parent_mem_ancestorsOf up up' member) parentThere

private theorem filter_childOf_below (apart : Apart parentHolds) (place : Place) :
    (place.children.flatMap subtree).filter (childOf parentHolds holds) =
      (place.subtree.filter parentHolds).flatMap (·.children.filter holds) := by
  induction place using children_induction with
  | step place ih =>
      have own : ∀ child ∈ place.children,
          child.childOf parentHolds holds = (holds child && parentHolds place) := by
        intro child among
        rw [childOf, parent?_of_mem_children among]
        rfl
      by_cases here : parentHolds place
      · -- Nothing below meets the condition, so that only the children of this place count.
        have single : ∀ child ∈ place.children,
            child.subtree.filter (childOf parentHolds holds) = [child].filter holds := by
          intro child among
          rw [subtree_eq, ← List.singleton_append, List.filter_append, ih child among,
            apart.filter_subtree here among, List.flatMap_nil, List.append_nil,
            List.filter_singleton, List.filter_singleton, own child among, here, Bool.and_true]
        rw [List.filter_flatMap, List.flatMap_congr single, ← List.filter_flatMap,
          List.flatMap_singleton', subtree_eq, List.filter_cons_of_pos here, List.filter_flatMap,
          List.flatMap_congr fun child among => apart.filter_subtree here among]
        simp
      · have same : ∀ child ∈ place.children, child.subtree.filter (childOf parentHolds holds) =
            (child.subtree.filter parentHolds).flatMap (·.children.filter holds) := by
          intro child among
          rw [← ih child among, subtree_eq, List.filter_cons_of_neg]
          simp [own child among, here]
        rw [List.filter_flatMap, List.flatMap_congr same, subtree_eq,
          List.filter_cons_of_neg here, List.filter_flatMap, List.flatMap_assoc]

/-- **The children of some places stand in the text in the order of these places**, if no two of
these lie on one way up. -/
theorem filter_childOf (apart : Apart parentHolds) (tree : Node) :
    (Place.root tree).subtree.filter (childOf parentHolds holds) =
      ((Place.root tree).subtree.filter parentHolds).flatMap (·.children.filter holds) := by
  rw [← filter_childOf_below holds apart, subtree_eq, List.filter_cons_of_neg]
  rw [childOf_iff]
  rintro ⟨-, parent, up, -⟩
  cases up

end Place

end ModelAssist.Tree
