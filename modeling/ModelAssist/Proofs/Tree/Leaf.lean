import Mathlib.Data.List.Basic
import ModelAssist.Tree.Node

/-!
# Leaves of a tree

The leaves of a tree in the order of the text, and how a place in the tree divides them
(`Place.IsIn.leaves_eq`): those before it, those under it and those after it.  In a nested tree,
where nodes lie inside the nodes above them, in order and without overlap, the division follows the
bytes (`Place.IsIn.before`, `Place.IsIn.after`).
-/

namespace ModelAssist.Tree

namespace Place

/-- Holds of the places with nothing below them. -/
def isLeaf (place : Place) : Bool :=
  place.node.children.isEmpty

/-- The leaves at and below a place, in the order of the text. -/
def leaves (place : Place) : List Place :=
  place.subtree.filter isLeaf

end Place

namespace Node

theorem size_lt_of_mem {node child : Node} (among : child ∈ node.children) :
    child.size < node.size := by
  obtain ⟨before, after, children⟩ := List.append_of_mem among
  rw [node.size_eq, children, sizeOfChildren_append, sizeOfChildren]
  omega

/-- The leaves under some children of a node, the first of which has the given number. -/
def leavesOfChildren (parent : Node) (above : List Turn) (index : Nat) (children : List Node) :
    List Place :=
  (placesOfChildren parent above index children).filter Place.isLeaf

theorem placesOfChildren_append (parent : Node) (above : List Turn) (index : Nat)
    (first second : List Node) :
    placesOfChildren parent above index (first ++ second) =
      placesOfChildren parent above index first ++
        placesOfChildren parent above (index + first.length) second := by
  induction first generalizing index with
  | nil => rfl
  | cons child first ih =>
      rw [List.cons_append, placesOfChildren, ih, placesOfChildren, List.append_assoc,
        List.length_cons, Nat.add_right_comm, Nat.add_assoc]

theorem leavesOfChildren_append (parent : Node) (above : List Turn) (index : Nat)
    (first second : List Node) :
    leavesOfChildren parent above index (first ++ second) =
      leavesOfChildren parent above index first ++
        leavesOfChildren parent above (index + first.length) second := by
  rw [leavesOfChildren, placesOfChildren_append, List.filter_append]
  rfl

theorem leavesOfChildren_cons (parent : Node) (above : List Turn) (index : Nat) (child : Node)
    (rest : List Node) :
    leavesOfChildren parent above index (child :: rest) =
      Place.leaves ⟨child, ⟨parent, index⟩ :: above⟩ ++
        leavesOfChildren parent above (index + 1) rest := by
  rw [leavesOfChildren, placesOfChildren, List.filter_append]
  rfl

end Node

mutual

/-- As many places lie under a node as it has nodes. -/
theorem Node.length_placesUnder (above : List Turn) :
    ∀ node : Node, (node.placesUnder above).length = node.size
  | .node info children => by
      rw [placesUnder, List.length_cons, length_placesOfChildren, size]

theorem Node.length_placesOfChildren (parent : Node) (above : List Turn) (index : Nat) :
    ∀ children : List Node,
      (placesOfChildren parent above index children).length = sizeOfChildren children
  | [] => rfl
  | child :: rest => by
      rw [placesOfChildren, List.length_append, length_placesUnder, length_placesOfChildren,
        sizeOfChildren]

end

namespace Place

/-- A place has no more leaves than nodes. -/
theorem length_leaves_le (place : Place) : place.leaves.length ≤ place.node.size := by
  rw [← Node.length_placesUnder place.above]
  exact List.length_filter_le _ _

theorem leaves_of_isLeaf {place : Place} (leaf : place.isLeaf) : place.leaves = [place] := by
  obtain ⟨⟨info, children⟩, above⟩ := place
  obtain rfl : children = [] := List.isEmpty_iff.mp leaf
  rfl

/-- The leaves of an inner node are those under its children. -/
theorem leaves_of_not_isLeaf {place : Place} (inner : ¬ place.isLeaf) :
    place.leaves = Node.leavesOfChildren place.node place.above 0 place.node.children := by
  obtain ⟨⟨info, children⟩, above⟩ := place
  rw [leaves, subtree, Node.placesUnder, List.filter_cons_of_neg inner]
  rfl

/-- Holds of the places in the tree of a node. -/
inductive IsIn (tree : Node) : Place → Prop
  | root : IsIn tree (.root tree)
  | child {place : Place} (inside : IsIn tree place) {index : Nat} {child : Node}
      (found : place.node.children[index]? = some child) : IsIn tree (place.childAt index child)

/-- The leaves before a place, given the nodes above it. -/
def leavesBefore : List Turn → List Place
  | [] => []
  | ⟨parent, index⟩ :: rest =>
    leavesBefore rest ++ Node.leavesOfChildren parent rest 0 (parent.children.take index)

/-- The leaves after a place, given the nodes above it. -/
def leavesAfter : List Turn → List Place
  | [] => []
  | ⟨parent, index⟩ :: rest =>
    Node.leavesOfChildren parent rest (index + 1) (parent.children.drop (index + 1)) ++
      leavesAfter rest

namespace IsIn

variable {tree : Node} {place : Place}

theorem of_child {node parent : Node} {index : Nat} {rest : List Turn}
    (inside : IsIn tree ⟨node, ⟨parent, index⟩ :: rest⟩) :
    IsIn tree ⟨parent, rest⟩ ∧ parent.children[index]? = some node := by
  cases inside with
  | child inside found => exact ⟨inside, found⟩

theorem not_isLeaf {index : Nat} {child : Node} (found : place.node.children[index]? = some child) :
    ¬ place.isLeaf := by
  intro leaf
  rw [isLeaf, List.isEmpty_iff] at leaf
  simp [leaf] at found

theorem children_eq {index : Nat} {child : Node}
    (found : place.node.children[index]? = some child) :
    place.node.children =
      place.node.children.take index ++ child :: place.node.children.drop (index + 1) := by
  obtain ⟨known, rfl⟩ := List.getElem?_eq_some_iff.mp found
  rw [List.getElem_cons_drop, List.take_append_drop]

/-- The children before one are counted by its number. -/
theorem length_take_children {index : Nat} {child : Node}
    (found : place.node.children[index]? = some child) :
    (place.node.children.take index).length = index := by
  have known : index < place.node.children.length := (List.getElem?_eq_some_iff.mp found).1
  rw [List.length_take, Nat.min_eq_left (Nat.le_of_lt known)]

/-- The leaves under a node are those before a child of it, under this child and after it. -/
theorem leaves_eq_of_child {index : Nat} {child : Node}
    (found : place.node.children[index]? = some child) :
    place.leaves =
      Node.leavesOfChildren place.node place.above 0 (place.node.children.take index) ++
        (place.childAt index child).leaves ++
        Node.leavesOfChildren place.node place.above (index + 1)
          (place.node.children.drop (index + 1)) := by
  rw [leaves_of_not_isLeaf (not_isLeaf found)]
  conv_lhs => rw [children_eq found]
  rw [Node.leavesOfChildren_append, length_take_children found, Nat.zero_add,
    Node.leavesOfChildren_cons, List.append_assoc]
  rfl

/-- **A place divides the leaves of its tree.** -/
theorem leaves_eq (inside : IsIn tree place) :
    (Place.root tree).leaves =
      leavesBefore place.above ++ place.leaves ++ leavesAfter place.above := by
  induction inside with
  | root => simp [leavesBefore, leavesAfter, Place.root]
  | @child place inside index child found ih =>
      rw [ih, leaves_eq_of_child found]
      simp only [childAt, leavesBefore, leavesAfter, List.append_assoc]

end IsIn

/-! ### The last leaf -/

theorem lastLeafOfChildren_concat (parent : Node) (above : List Turn) (index : Nat)
    (first : List Node) (last : Node) :
    Node.lastLeafOfChildren parent above index (first ++ [last]) =
      some (last.lastLeafUnder (⟨parent, index + first.length⟩ :: above)) := by
  induction first generalizing index with
  | nil => rfl
  | cons child first ih =>
      rw [List.cons_append, Node.lastLeafOfChildren, ih, List.length_cons, Nat.add_right_comm,
        Nat.add_assoc]

theorem lastLeaf_of_isLeaf {place : Place} (leaf : place.isLeaf) : place.lastLeaf = place := by
  obtain ⟨⟨info, children⟩, above⟩ := place
  obtain rfl : children = [] := List.isEmpty_iff.mp leaf
  rfl

theorem lastLeaf_of_children {place : Place} {first : List Node} {last : Node}
    (children : place.node.children = first ++ [last]) :
    place.lastLeaf = (place.childAt first.length last).lastLeaf := by
  obtain ⟨⟨info, nodes⟩, above⟩ := place
  obtain rfl : nodes = first ++ [last] := children
  rw [lastLeaf, Node.lastLeafUnder, lastLeafOfChildren_concat, Nat.zero_add]
  rfl

/-- Going down to the last child again and again ends. -/
theorem last_child_induction {motive : Place → Prop}
    (leaf : ∀ place : Place, place.isLeaf → motive place)
    (inner : ∀ (place : Place) (first : List Node) (last : Node),
      place.node.children = first ++ [last] → motive (place.childAt first.length last) →
        motive place) (place : Place) : motive place := by
  induction size : place.node.size using Nat.strongRecOn generalizing place with
  | _ count ih =>
      rcases List.eq_nil_or_concat place.node.children with none_ | ⟨first, last, children⟩
      · exact leaf place (by rw [isLeaf, none_]; rfl)
      · rw [List.concat_eq_append] at children
        have smaller : last.size < count := by
          rw [← size]
          exact Node.size_lt_of_mem (by simp [children])
        exact inner place first last children (ih _ smaller _ rfl)

/-- The last leaf is a leaf. -/
theorem isLeaf_lastLeaf (place : Place) : place.lastLeaf.isLeaf := by
  induction place using last_child_induction with
  | leaf place leaf => rwa [lastLeaf_of_isLeaf leaf]
  | inner place first last children ih => rwa [lastLeaf_of_children children]

namespace IsIn

variable {tree : Node} {place : Place}

private theorem found_last {first : List Node} {last : Node}
    (children : place.node.children = first ++ [last]) :
    place.node.children[first.length]? = some last := by
  rw [children, List.getElem?_concat_length]

/-- The last leaf of a place in the tree is in the tree. -/
theorem lastLeaf (inside : IsIn tree place) : IsIn tree place.lastLeaf := by
  induction place using last_child_induction with
  | leaf place leaf => rwa [lastLeaf_of_isLeaf leaf]
  | inner place first last children ih =>
      rw [lastLeaf_of_children children]
      exact ih (.child inside (found_last children))

end IsIn

/-- The last leaf under a place is the last one of the leaves before it and under it. -/
theorem leavesBefore_lastLeaf (place : Place) :
    leavesBefore place.above ++ place.leaves =
      leavesBefore place.lastLeaf.above ++ [place.lastLeaf] := by
  induction place using last_child_induction with
  | leaf place leaf => rw [lastLeaf_of_isLeaf leaf, leaves_of_isLeaf leaf]
  | inner place first last children ih =>
      rw [lastLeaf_of_children children, ← ih, IsIn.leaves_eq_of_child (IsIn.found_last children)]
      have nothing : place.node.children.drop (first.length + 1) = [] := by simp [children]
      rw [nothing]
      simp [childAt, leavesBefore, Node.leavesOfChildren, Node.placesOfChildren]

/-! ### The way up from the last leaf -/

theorem mem_selfAndAbove_trans {place middle above : Place} (first : middle ∈ place.selfAndAbove)
    (second : above ∈ middle.selfAndAbove) : above ∈ place.selfAndAbove := by
  obtain ⟨node, turns⟩ := place
  induction turns generalizing node with
  | nil =>
      obtain rfl := List.mem_singleton.mp first
      exact second
  | cons turn rest ih =>
      rcases List.mem_cons.mp first with rfl | higher
      · exact second
      · exact List.mem_cons_of_mem _ (ih turn.node higher)

/-- What lies farther up than a place on the way is what lies above that place. -/
theorem selfAndAbove_of_split {place above : Place} {nearer farther : List Place}
    (split : place.selfAndAbove = nearer ++ above :: farther) :
    above.selfAndAbove = above :: farther := by
  obtain ⟨node, turns⟩ := place
  induction turns generalizing node nearer with
  | nil =>
      obtain ⟨rfl, here⟩ | ⟨rest, -, impossible⟩ := List.cons_eq_append_iff.mp split
      · rw [here, (List.cons.inj here).1]
        rfl
      · simp [ancestorsOf] at impossible
  | cons turn rest ih =>
      obtain ⟨rfl, here⟩ | ⟨further, -, later⟩ := List.cons_eq_append_iff.mp split
      · rw [here, (List.cons.inj here).1]
        rfl
      · exact ih turn.node later

theorem depth_le_of_mem_selfAndAbove {place above : Place} (member : above ∈ place.selfAndAbove) :
    above.above.length ≤ place.above.length := by
  obtain ⟨node, turns⟩ := place
  induction turns generalizing node with
  | nil =>
      obtain rfl := List.mem_singleton.mp member
      exact Nat.le_refl _
  | cons turn rest ih =>
      rcases List.mem_cons.mp member with rfl | higher
      · exact Nat.le_refl _
      · exact Nat.le_succ_of_le (ih turn.node higher)

/-- On the way up from a place there is one place at each depth. -/
theorem eq_of_mem_selfAndAbove {place first second : Place} (one : first ∈ place.selfAndAbove)
    (two : second ∈ place.selfAndAbove) (same : first.above.length = second.above.length) :
    first = second := by
  obtain ⟨node, turns⟩ := place
  induction turns generalizing node with
  | nil => rw [List.mem_singleton.mp one, List.mem_singleton.mp two]
  | cons turn rest ih =>
      have higher {other : Place} (member : other ∈ ancestorsOf (turn :: rest)) :
          other.above.length < (turn :: rest).length :=
        Nat.lt_succ_of_le (@depth_le_of_mem_selfAndAbove ⟨turn.node, rest⟩ other member)
      rcases List.mem_cons.mp one with rfl | one' <;> rcases List.mem_cons.mp two with rfl | two'
      · rfl
      · exact absurd same.symm (Nat.ne_of_lt (higher two'))
      · exact absurd same (Nat.ne_of_lt (higher one'))
      · exact ih turn.node one' two'

/-- A place is above its last leaf, or is that leaf itself. -/
theorem mem_selfAndAbove_lastLeaf (place : Place) : place ∈ place.lastLeaf.selfAndAbove := by
  induction place using last_child_induction with
  | leaf place leaf =>
      rw [lastLeaf_of_isLeaf leaf]
      exact List.mem_cons_self
  | inner place first last children ih =>
      rw [lastLeaf_of_children children]
      exact mem_selfAndAbove_trans ih (List.mem_cons_of_mem _ List.mem_cons_self)

/-- A leaf that is the last one under a place is the last one under every place on the way. -/
theorem lastLeaf_of_between {leaf inner outer : Place} (below : inner ∈ leaf.selfAndAbove)
    (between : outer ∈ inner.selfAndAbove) (last : outer.lastLeaf = leaf) :
    inner.lastLeaf = leaf := by
  obtain ⟨node, turns⟩ := inner
  induction turns generalizing node with
  | nil =>
      obtain rfl := List.mem_singleton.mp between
      exact last
  | cons turn rest ih =>
      rcases List.mem_cons.mp between with rfl | higher
      · exact last
      -- The place above has this leaf as its last one, and its last child is on the way to it.
      · have parentBelow : ⟨turn.node, rest⟩ ∈ leaf.selfAndAbove :=
          mem_selfAndAbove_trans below (List.mem_cons_of_mem _ List.mem_cons_self)
        have parentLast := ih turn.node parentBelow higher
        rcases List.eq_nil_or_concat turn.node.children with none_ | ⟨first, last', children⟩
        · have alone : Place.lastLeaf ⟨turn.node, rest⟩ = ⟨turn.node, rest⟩ :=
            lastLeaf_of_isLeaf (List.isEmpty_iff.mpr none_)
          rw [← parentLast, alone] at below
          exact absurd (depth_le_of_mem_selfAndAbove below) (Nat.not_succ_le_self _)
        · rw [List.concat_eq_append] at children
          rw [@lastLeaf_of_children ⟨turn.node, rest⟩ _ _ children] at parentLast
          have onTheWay := mem_selfAndAbove_lastLeaf (childAt ⟨turn.node, rest⟩ first.length last')
          rw [parentLast] at onTheWay
          rw [eq_of_mem_selfAndAbove below onTheWay rfl]
          exact parentLast

end Place

/-! ### Nested trees -/

/-- Holds if all nodes lie inside the nodes above them, in order and without overlap. -/
inductive Node.IsNested : Node → Prop
  | node {info : NodeInfo} {children : List Node} (ordered : info.startByte ≤ info.endByte)
      (within : ∀ child ∈ children,
        info.startByte ≤ child.info.startByte ∧ child.info.endByte ≤ info.endByte)
      (apart : children.Pairwise fun first second => first.info.endByte ≤ second.info.startByte)
      (below : ∀ child ∈ children, child.IsNested) : IsNested (.node info children)

/-- Holds if what is at a place lies inside a node. -/
structure Place.Within (place : Place) (node : Node) : Prop where
  start : node.info.startByte ≤ place.info.startByte
  ordered : place.info.startByte ≤ place.info.endByte
  finish : place.info.endByte ≤ node.info.endByte

namespace Node

theorem mem_placesOfChildren {parent : Node} {above : List Turn} {index : Nat}
    {children : List Node} {place : Place}
    (member : place ∈ placesOfChildren parent above index children) :
    ∃ child ∈ children, ∃ number, place ∈ child.placesUnder (⟨parent, number⟩ :: above) := by
  induction children generalizing index with
  | nil => cases member
  | cons child rest ih =>
      rw [placesOfChildren, List.mem_append] at member
      rcases member with here | later
      · exact ⟨child, List.mem_cons_self, index, here⟩
      · obtain ⟨other, among, number, found⟩ := ih later
        exact ⟨other, List.mem_cons_of_mem _ among, number, found⟩

namespace IsNested

variable {node : Node}

theorem ordered (nested : node.IsNested) : node.info.startByte ≤ node.info.endByte := by
  cases nested with
  | node ordered _ _ _ => exact ordered

theorem child_within (nested : node.IsNested) {child : Node} (among : child ∈ node.children) :
    node.info.startByte ≤ child.info.startByte ∧ child.info.endByte ≤ node.info.endByte := by
  cases nested with
  | node _ within _ _ => exact within child among

theorem child_nested (nested : node.IsNested) {child : Node} (among : child ∈ node.children) :
    child.IsNested := by
  cases nested with
  | node _ _ _ below => exact below child among

theorem children_apart (nested : node.IsNested) :
    node.children.Pairwise fun first second => first.info.endByte ≤ second.info.startByte := by
  cases nested with
  | node _ _ apart _ => exact apart

/-- Everything under a node of a nested tree lies inside it. -/
theorem within (nested : node.IsNested) {above : List Turn} {place : Place}
    (member : place ∈ node.placesUnder above) : place.Within node := by
  induction nested generalizing above place with
  | @node info children ordered within apart below ih =>
      rw [placesUnder, List.mem_cons] at member
      rcases member with rfl | under
      · exact ⟨Nat.le_refl _, ordered, Nat.le_refl _⟩
      · obtain ⟨child, among, number, found⟩ := mem_placesOfChildren under
        have inner := ih child among found
        obtain ⟨start, finish⟩ := within child among
        exact ⟨Nat.le_trans start inner.start, inner.ordered, Nat.le_trans inner.finish finish⟩

private theorem pairwise_placesOfChildren {parent : Node} {above : List Turn} {index : Nat}
    {children : List Node} (nested : ∀ child ∈ children, child.IsNested)
    (apart : children.Pairwise fun first second => first.info.endByte ≤ second.info.startByte)
    (each : ∀ child ∈ children, ∀ above, (child.placesUnder above).Pairwise fun first second =>
      first.info.startByte ≤ second.info.startByte) :
    (placesOfChildren parent above index children).Pairwise fun first second =>
      first.info.startByte ≤ second.info.startByte := by
  induction children generalizing index with
  | nil => exact List.Pairwise.nil
  | cons child rest ih =>
      obtain ⟨later, apart⟩ := List.pairwise_cons.mp apart
      rw [placesOfChildren, List.pairwise_append]
      refine ⟨each child List.mem_cons_self _,
        ih (fun other among => nested other (List.mem_cons_of_mem _ among)) apart
          fun other among => each other (List.mem_cons_of_mem _ among), ?_⟩
      intro first here second there
      obtain ⟨other, among, number, found⟩ := mem_placesOfChildren there
      have left := (nested child List.mem_cons_self).within here
      have right := (nested other (List.mem_cons_of_mem _ among)).within found
      calc first.info.startByte
          ≤ first.info.endByte := left.ordered
        _ ≤ child.info.endByte := left.finish
        _ ≤ other.info.startByte := later other among
        _ ≤ second.info.startByte := right.start

/-- In a nested tree the order of the text is that of the first bytes. -/
theorem pairwise_placesUnder (nested : node.IsNested) (above : List Turn) :
    (node.placesUnder above).Pairwise fun first second =>
      first.info.startByte ≤ second.info.startByte := by
  induction nested generalizing above with
  | @node info children ordered within apart below ih =>
      have whole : IsNested (.node info children) := ⟨ordered, within, apart, below⟩
      rw [placesUnder, List.pairwise_cons]
      refine ⟨fun place under => ?_, pairwise_placesOfChildren below apart ih⟩
      have member : place ∈ placesUnder above (.node info children) := by
        rw [placesUnder]
        exact List.mem_cons_of_mem _ under
      exact (whole.within member).start

end IsNested

end Node

/-- The leaves of a nested node stand in the order of their bytes. -/
theorem Place.pairwise_leaves {place : Place} (nested : place.node.IsNested) :
    place.leaves.Pairwise fun first second => first.info.startByte ≤ second.info.startByte :=
  (nested.pairwise_placesUnder place.above).filter _

namespace Place.IsIn

variable {tree : Node} {place leaf : Place}

/-- Nodes of a nested tree are nested. -/
theorem nested (inside : IsIn tree place) (whole : tree.IsNested) : place.node.IsNested := by
  induction inside with
  | root => exact whole
  | child _ found ih => exact ih.child_nested (List.mem_of_getElem? found)

theorem mem_leavesOfChildren {parent : Node} {above : List Turn} {index : Nat}
    {children : List Node} (member : leaf ∈ Node.leavesOfChildren parent above index children) :
    ∃ child ∈ children, ∃ number, leaf ∈ child.placesUnder (⟨parent, number⟩ :: above) :=
  Node.mem_placesOfChildren (List.mem_of_mem_filter member)

/-- In a nested tree the leaves before a place end where it starts, or earlier. -/
theorem before (inside : IsIn tree place) (whole : tree.IsNested)
    (member : leaf ∈ leavesBefore place.above) :
    leaf.info.startByte ≤ leaf.info.endByte ∧ leaf.info.endByte ≤ place.info.startByte := by
  induction inside with
  | root => cases member
  | @child place inside index child found ih =>
      have nested := inside.nested whole
      rcases List.mem_append.mp member with outside | beside
      · obtain ⟨ordered, earlier⟩ := ih outside
        exact ⟨ordered, Nat.le_trans earlier (nested.child_within (List.mem_of_getElem? found)).1⟩
      · obtain ⟨sibling, among, number, under⟩ := mem_leavesOfChildren beside
        have sorted : sibling.info.endByte ≤ child.info.startByte := by
          have apart := nested.children_apart
          rw [children_eq found, List.pairwise_append] at apart
          exact apart.2.2 sibling among child List.mem_cons_self
        have within := (nested.child_nested (List.mem_of_mem_take among)).within under
        exact ⟨within.ordered, Nat.le_trans within.finish sorted⟩

/-- In a nested tree the leaves after a place start where it ends, or later. -/
theorem after (inside : IsIn tree place) (whole : tree.IsNested)
    (member : leaf ∈ leavesAfter place.above) : place.info.endByte ≤ leaf.info.startByte := by
  induction inside with
  | root => cases member
  | @child place inside index child found ih =>
      have nested := inside.nested whole
      rcases List.mem_append.mp member with beside | outside
      · obtain ⟨sibling, among, number, under⟩ := mem_leavesOfChildren beside
        have sorted : child.info.endByte ≤ sibling.info.startByte := by
          have apart := nested.children_apart
          rw [children_eq found, List.pairwise_append, List.pairwise_cons] at apart
          exact apart.2.1.1 sibling among
        have within := (nested.child_nested (List.mem_of_mem_drop among)).within under
        exact Nat.le_trans sorted within.start
      · exact Nat.le_trans (nested.child_within (List.mem_of_getElem? found)).2 (ih outside)

end Place.IsIn

/-! ### The innermost place that fits -/

namespace Node

variable {tree : Node} {fits : Node → Bool}

/-- Going down ends here, or goes on from a child that fits. -/
theorem descendInto_cases (parent : Node) (above : List Turn) (index : Nat)
    (children : List Node) :
    descendInto fits parent above index children = none ∧ (∀ child ∈ children, ¬ fits child) ∨
      ∃ number child, children[number]? = some child ∧ fits child ∧
        descendInto fits parent above index children =
          some (child.descend fits (⟨parent, index + number⟩ :: above)) := by
  induction children generalizing index with
  | nil => exact .inl ⟨rfl, nofun⟩
  | cons child rest ih =>
      rw [descendInto]
      by_cases here : fits child
      · exact .inr ⟨0, child, rfl, here, by rw [if_pos here]; rfl⟩
      · rw [if_neg here]
        rcases ih (index + 1) with ⟨nothing, unfit⟩ | ⟨number, other, found, fit, later⟩
        · exact .inl ⟨nothing, List.forall_mem_cons.mpr ⟨here, unfit⟩⟩
        · refine .inr ⟨number + 1, other, found, fit, ?_⟩
          rw [later, Nat.add_right_comm, Nat.add_assoc]

end Node

namespace Place

variable {tree : Node} {fits : Node → Bool}

/-- Holds of a place in a tree that fits unless it is the root, and below which nothing fits. -/
structure IsInnermost (tree : Node) (fits : Node → Bool) (place : Place) : Prop where
  inside : place.IsIn tree
  isRoot_or_fits : place = .root tree ∨ fits place.node
  unfit : ∀ child ∈ place.node.children, ¬ fits child

/-- The descent ends at an innermost place that fits. -/
theorem isInnermost_descend {place : Place} (inside : place.IsIn tree)
    (reached : place = .root tree ∨ fits place.node) :
    IsInnermost tree fits (place.node.descend fits place.above) := by
  induction size : place.node.size using Nat.strongRecOn generalizing place with
  | _ count ih =>
      have down : place.node.descend fits place.above =
          (Node.descendInto fits place.node place.above 0 place.node.children).getD place := by
        obtain ⟨⟨info, children⟩, above⟩ := place
        rfl
      rw [down]
      rcases Node.descendInto_cases place.node place.above 0 place.node.children with
        ⟨nothing, unfit⟩ | ⟨number, child, found, fit, later⟩
      · rw [nothing]
        exact ⟨inside, reached, unfit⟩
      · have smaller : child.size < count := by
          rw [← size]
          exact Node.size_lt_of_mem (List.mem_of_getElem? found)
        rw [later, Nat.zero_add]
        exact ih child.size smaller (.child inside found) (.inr fit) rfl

end Place

end ModelAssist.Tree
