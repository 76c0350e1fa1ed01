import ModelAssist.Proofs.Text.Position
import ModelAssist.Proofs.Tree.Leaf

/-!
# Trees over a text

In a tree over a text every node says which bytes it covers and at which points it starts and ends
(`Node.IsOver`).  There it makes no difference whether a node is looked for by byte or by point
(`Node.IsOver.atPoint_eq`), and a leaf is found from every byte that it covers
(`Node.IsNested.atByte_eq`).
-/

namespace ModelAssist.Tree

open ModelAssist.Text (utf8 Point)

/-- Holds of a nested tree whose nodes tell the bytes and the points of a text. -/
structure Node.IsOver (tree : Node) (text : List Char) : Prop where
  nested : tree.IsNested
  within : ∀ place : Place, place.IsIn tree → place.info.endByte ≤ (utf8 text).length
  bytes : ∀ place : Place, place.IsIn tree →
    place.info.bytes = some (((utf8 text).take place.info.endByte).drop place.info.startByte)
  startPoint : ∀ place : Place, place.IsIn tree →
    place.info.startPoint = Point.ofBytes ((utf8 text).take place.info.startByte)
  endPoint : ∀ place : Place, place.IsIn tree →
    place.info.endPoint = Point.ofBytes ((utf8 text).take place.info.endByte)

/-- Holds of a node that tells the bytes and the points of a text at its offsets. -/
structure Node.Tells (node : Node) (text : List Char) : Prop where
  bytes : node.info.bytes = some (((utf8 text).take node.info.endByte).drop node.info.startByte)
  startPoint : node.info.startPoint = Point.ofBytes ((utf8 text).take node.info.startByte)
  endPoint : node.info.endPoint = Point.ofBytes ((utf8 text).take node.info.endByte)

instance (node : Node) (text : List Char) : Decidable (node.Tells text) :=
  decidable_of_iff
    (node.info.bytes = some (((utf8 text).take node.info.endByte).drop node.info.startByte) ∧
      node.info.startPoint = Point.ofBytes ((utf8 text).take node.info.startByte) ∧
        node.info.endPoint = Point.ofBytes ((utf8 text).take node.info.endByte))
    ⟨fun ⟨bytes, start, finish⟩ => ⟨bytes, start, finish⟩, fun ⟨bytes, start, finish⟩ =>
      ⟨bytes, start, finish⟩⟩

namespace Node.Tells

variable {node : Node} {before word after : List Char}
  (tells : node.Tells (before ++ word ++ after))
  (start : node.info.startByte = (utf8 before).length)
  (finish : node.info.endByte = (utf8 (before ++ word)).length)
include tells

include start finish in
/-- A node over whole characters has these as its text. -/
theorem text_eq : node.text = String.ofList word := by
  have whole : (utf8 (before ++ word ++ after)).take (utf8 (before ++ word)).length =
      utf8 before ++ utf8 word := by
    rw [Text.utf8_append _ after, List.take_left, Text.utf8_append]
  rw [Node.text, tells.bytes, finish, start, whole, List.drop_left]
  exact congrArg String.ofList (Text.decodeMarking_utf8 word)

include start in
theorem startPoint_eq : node.info.startPoint = Point.ofBytes (utf8 before) := by
  rw [tells.startPoint, start, List.append_assoc, Text.utf8_append, List.take_left]

include finish in
theorem endPoint_eq : node.info.endPoint = Point.ofBytes (utf8 (before ++ word)) := by
  rw [tells.endPoint, finish, Text.utf8_append _ after, List.take_left]

end Node.Tells

/-! ### Places and leaves -/

namespace Place

variable {tree : Node}

mutual

/-- All that is listed under a place lies in the tree. -/
theorem isIn_of_mem_placesUnder {above : List Turn} {place : Place} :
    ∀ node : Node, IsIn tree ⟨node, above⟩ → place ∈ node.placesUnder above → place.IsIn tree
  | .node info children, inside, member => by
      rw [Node.placesUnder, List.mem_cons] at member
      rcases member with rfl | under
      · exact inside
      · exact isIn_of_mem_placesOfChildren (.node info children) [] children inside
          (List.nil_append _) under

/-- The places of the children of a place in the tree are in the tree. -/
theorem isIn_of_mem_placesOfChildren {above : List Turn} {place : Place} (parent : Node)
    (earlier : List Node) :
    ∀ children : List Node, IsIn tree ⟨parent, above⟩ → earlier ++ children = parent.children →
      place ∈ Node.placesOfChildren parent above earlier.length children → place.IsIn tree
  | [], _, _, member => by cases member
  | child :: rest, inside, split, member => by
      rw [Node.placesOfChildren, List.mem_append] at member
      rcases member with here | later
      · have found : (Place.mk parent above).node.children[earlier.length]? = some child := by
          rw [← split]
          simp
        exact isIn_of_mem_placesUnder child (.child inside found) here
      · exact isIn_of_mem_placesOfChildren parent (earlier ++ [child]) rest inside
          (by simpa using split) (by simpa using later)

end

/-- The subtree of a child is part of the subtree. -/
theorem subtree_childAt_subset {place : Place} {index : Nat} {child : Node}
    (found : place.node.children[index]? = some child) :
    (place.childAt index child).subtree ⊆ place.subtree := by
  intro below member
  have whole : place.subtree =
      place :: Node.placesOfChildren place.node place.above 0 place.node.children := by
    obtain ⟨⟨info, children⟩, above⟩ := place
    rfl
  rw [whole, IsIn.children_eq found, Node.placesOfChildren_append, IsIn.length_take_children found,
    Nat.zero_add, Node.placesOfChildren]
  exact List.mem_cons_of_mem _ (List.mem_append_right _ (List.mem_append_left _ member))

/-- The places of a tree are those that are listed under its root. -/
theorem mem_subtree_root_iff {place : Place} :
    place ∈ (Place.root tree).subtree ↔ place.IsIn tree := by
  refine ⟨isIn_of_mem_placesUnder tree .root, fun inside => ?_⟩
  have all : place.subtree ⊆ (Place.root tree).subtree := by
    induction inside with
    | root => exact fun _ member => member
    | child _ found ih => exact List.Subset.trans (subtree_childAt_subset found) ih
  obtain ⟨⟨info, children⟩, above⟩ := place
  exact all (by rw [subtree, Node.placesUnder]; exact List.mem_cons_self)

/-- Every leaf in the tree is among its leaves. -/
theorem IsIn.mem_leaves {leaf : Place} (inside : leaf.IsIn tree) (isLeaf : leaf.isLeaf) :
    leaf ∈ (Place.root tree).leaves :=
  List.mem_filter.mpr ⟨mem_subtree_root_iff.mpr inside, isLeaf⟩

/-- Every one of the leaves of a tree is in the tree. -/
theorem isIn_of_mem_leaves {leaf : Place} (member : leaf ∈ (Place.root tree).leaves) :
    leaf.IsIn tree :=
  isIn_of_mem_placesUnder tree .root (List.mem_of_mem_filter member)

/-- What is above a place in the tree is in the tree. -/
theorem IsIn.of_mem_selfAndAbove {place above : Place} (inside : place.IsIn tree)
    (member : above ∈ place.selfAndAbove) : above.IsIn tree := by
  obtain ⟨node, turns⟩ := place
  induction turns generalizing node with
  | nil => rwa [List.mem_singleton.mp member]
  | cons turn rest ih =>
      rcases List.mem_cons.mp member with rfl | higher
      · exact inside
      · exact ih turn.node inside.of_child.1 higher

/-- Nothing lies below a leaf. -/
theorem IsIn.eq_of_isLeaf_above {place above : Place} (inside : place.IsIn tree)
    (member : above ∈ place.selfAndAbove) (leaf : above.isLeaf) : above = place := by
  obtain ⟨node, turns⟩ := place
  induction turns generalizing node with
  | nil => exact List.mem_singleton.mp member
  | cons turn rest ih =>
      rcases List.mem_cons.mp member with same | higher
      · exact same
      · obtain ⟨parentInside, found⟩ := inside.of_child
        rw [ih turn.node parentInside higher] at leaf
        exact absurd leaf (@not_isLeaf ⟨turn.node, rest⟩ _ _ found)

/-- The leaf over a byte is the innermost place there. -/
theorem IsInnermost.eq_of_covers {byte : Nat} {hit leaf : Place} (nested : tree.IsNested)
    (innermost : hit.IsInnermost tree (Node.coversByte byte))
    (among : leaf ∈ (Place.root tree).leaves) (covers : leaf.node.coversByte byte) :
    hit = leaf := by
  simp only [Node.coversByte, Bool.and_eq_true, decide_eq_true_eq] at covers
  have notBefore : leaf ∉ leavesBefore hit.above := by
    intro earlier
    rcases innermost.isRoot_or_fits with rfl | fits
    · cases earlier
    · simp only [Node.coversByte, Bool.and_eq_true, decide_eq_true_eq] at fits
      have apart := (innermost.inside.before nested earlier).2
      exact absurd (Nat.le_trans apart fits.1) (Nat.not_le_of_lt covers.2)
  have notAfter : leaf ∉ leavesAfter hit.above := by
    intro later
    rcases innermost.isRoot_or_fits with rfl | fits
    · cases later
    · simp only [Node.coversByte, Bool.and_eq_true, decide_eq_true_eq] at fits
      have apart := innermost.inside.after nested later
      exact absurd (Nat.le_trans apart covers.1) (Nat.not_le_of_lt fits.2)
  rw [innermost.inside.leaves_eq, List.mem_append, List.mem_append] at among
  have under := (among.resolve_right notAfter).resolve_left notBefore
  by_cases isLeaf : hit.isLeaf
  · rw [leaves_of_isLeaf isLeaf] at under
    exact (List.mem_singleton.mp under).symm
  · -- A child of an inner node would lie over the byte as well.
    rw [leaves_of_not_isLeaf isLeaf] at under
    obtain ⟨child, among, number, there⟩ := IsIn.mem_leavesOfChildren under
    have within := ((innermost.inside.nested nested).child_nested among).within there
    refine absurd ?_ (innermost.unfit child among)
    simp only [Node.coversByte, Bool.and_eq_true, decide_eq_true_eq]
    exact ⟨Nat.le_trans within.start covers.1, Nat.lt_of_lt_of_le covers.2 within.finish⟩

end Place

namespace Node

variable {tree : Node}

/-! ### What every node has to meet -/

/-- Holds of a node inside a text that its children divide in order. -/
structure Fits (node : Node) (text : List Char) : Prop where
  ordered : node.info.startByte ≤ node.info.endByte
  within : node.info.endByte ≤ (utf8 text).length
  around : ∀ child ∈ node.children,
    node.info.startByte ≤ child.info.startByte ∧ child.info.endByte ≤ node.info.endByte
  apart : node.children.Pairwise fun first second => first.info.endByte ≤ second.info.startByte
  tells : node.Tells text

instance (node : Node) (text : List Char) : Decidable (node.Fits text) :=
  decidable_of_iff
    (node.info.startByte ≤ node.info.endByte ∧ node.info.endByte ≤ (utf8 text).length ∧
      (∀ child ∈ node.children,
        node.info.startByte ≤ child.info.startByte ∧ child.info.endByte ≤ node.info.endByte) ∧
      (node.children.Pairwise fun first second => first.info.endByte ≤ second.info.startByte) ∧
        node.Tells text)
    ⟨fun ⟨ordered, within, around, apart, tells⟩ => ⟨ordered, within, around, apart, tells⟩,
      fun ⟨ordered, within, around, apart, tells⟩ => ⟨ordered, within, around, apart, tells⟩⟩

/-- A tree whose nodes all fit a text is nested. -/
theorem isNested_of_fits {text : List Char}
    (fits : ∀ place : Place, place.IsIn tree → place.node.Fits text) : tree.IsNested := by
  have all (place : Place) (inside : place.IsIn tree) : place.node.IsNested := by
    induction size : place.node.size using Nat.strongRecOn generalizing place with
    | _ count ih =>
        obtain ⟨ordered, -, around, apart, -⟩ := fits place inside
        obtain ⟨⟨info, children⟩, above⟩ := place
        refine .node ordered around apart fun child among => ?_
        obtain ⟨index, found⟩ := List.getElem?_of_mem among
        have smaller : child.size < count := size ▸ size_lt_of_mem among
        exact ih _ smaller _ (.child inside found) rfl
  exact all (.root tree) .root

/-- A tree is over a text if this holds of its nodes one by one. -/
theorem isOver_iff {text : List Char} :
    tree.IsOver text ↔ ∀ place ∈ (Place.root tree).subtree, place.node.Fits text := by
  simp only [Place.mem_subtree_root_iff]
  constructor
  · intro overText place inside
    have nested := inside.nested overText.nested
    exact ⟨nested.ordered, overText.within place inside, fun _ => nested.child_within,
      nested.children_apart, overText.bytes place inside, overText.startPoint place inside,
      overText.endPoint place inside⟩
  · intro fits
    exact ⟨isNested_of_fits fits, fun place inside => (fits place inside).within,
      fun place inside => (fits place inside).tells.bytes,
      fun place inside => (fits place inside).tells.startPoint,
      fun place inside => (fits place inside).tells.endPoint⟩

instance (tree : Node) (text : List Char) : Decidable (tree.IsOver text) :=
  decidable_of_iff _ isOver_iff.symm

/-- The node over the bytes of a text between two offsets. -/
def spanning (text : List Char) (kind : String) (field : Option String) (start stop : Nat)
    (children : List Node) : Node :=
  .node ⟨kind, field, start, stop, Point.ofBytes ((utf8 text).take start),
    Point.ofBytes ((utf8 text).take stop), some (((utf8 text).take stop).drop start), false, false,
    0, 0⟩ children

/-! ### The innermost place at a byte and at a point -/

/-- The place at a byte is an innermost one that covers it. -/
theorem isInnermost_atByte (tree : Node) (byte : Nat) :
    (tree.atByte byte).IsInnermost tree (coversByte byte) :=
  Place.isInnermost_descend .root (.inl rfl)

theorem atByte_of_isLeaf (leaf : (Place.root tree).isLeaf) (byte : Nat) :
    tree.atByte byte = .root tree := by
  obtain ⟨info, children⟩ := tree
  obtain rfl : children = [] := List.isEmpty_iff.mp leaf
  rfl

/-- In a nested tree the place at a byte of a leaf is the leaf. -/
theorem IsNested.atByte_eq {byte : Nat} {leaf : Place} (nested : tree.IsNested)
    (among : leaf ∈ (Place.root tree).leaves) (covers : leaf.node.coversByte byte) :
    tree.atByte byte = leaf :=
  (isInnermost_atByte tree byte).eq_of_covers nested among covers

mutual

theorem descend_congr {first second : Node → Bool} (above : List Turn) :
    ∀ node : Node, (∀ place ∈ node.placesUnder above, first place.node = second place.node) →
      node.descend first above = node.descend second above
  | .node info children, same => by
      have below : ∀ place ∈ placesOfChildren (.node info children) above 0 children,
          first place.node = second place.node := fun place member =>
        same place (by rw [placesUnder]; exact List.mem_cons_of_mem _ member)
      rw [descend, descend, descendInto_congr _ above 0 children below]

theorem descendInto_congr {first second : Node → Bool} (parent : Node) (above : List Turn)
    (index : Nat) :
    ∀ children : List Node,
      (∀ place ∈ placesOfChildren parent above index children,
        first place.node = second place.node) →
      descendInto first parent above index children = descendInto second parent above index children
  | [], _ => rfl
  | child :: rest, same => by
      rw [placesOfChildren] at same
      have here : ∀ place ∈ child.placesUnder (⟨parent, index⟩ :: above),
          first place.node = second place.node := fun place member =>
        same place (List.mem_append_left _ member)
      have own : first child = second child := by
        obtain ⟨info, children⟩ := child
        exact here ⟨.node info children, _⟩ (by rw [placesUnder]; exact List.mem_cons_self)
      rw [descendInto, descendInto, own, descend_congr _ child here,
        descendInto_congr parent above (index + 1) rest fun place member =>
          same place (List.mem_append_right _ member)]

end

namespace IsOver

variable {text : List Char} (overText : tree.IsOver text)
include overText

/-- In a text a node covers a point exactly if it covers its byte. -/
theorem coversPoint_eq {place : Place} (inside : place.IsIn tree) {byte : Nat}
    (known : byte ≤ (utf8 text).length) :
    place.node.coversPoint (Point.ofBytes ((utf8 text).take byte)) =
      place.node.coversByte byte := by
  have ordered : place.info.startByte ≤ place.info.endByte :=
    (inside.nested overText.nested).ordered
  have finish := overText.within place inside
  have start : place.info.startByte ≤ (utf8 text).length := Nat.le_trans ordered finish
  rw [Bool.eq_iff_iff]
  change (place.info.startPoint.atMost _ && Point.before _ place.info.endPoint) = true ↔
    (decide (place.info.startByte ≤ byte) && decide (byte < place.info.endByte)) = true
  rw [overText.startPoint place inside, overText.endPoint place inside, Bool.and_eq_true,
    Bool.and_eq_true, Point.atMost_iff, Point.before_ofBytes_iff _ known start,
    Point.before_ofBytes_iff _ known finish,
    Nat.not_lt, decide_eq_true_eq, decide_eq_true_eq]

/-- The innermost place at a point of the text is that at its byte. -/
theorem atPoint_eq {byte : Nat} (known : byte ≤ (utf8 text).length) :
    tree.atPoint (Point.ofBytes ((utf8 text).take byte)) = tree.atByte byte :=
  descend_congr [] tree fun _ member =>
    overText.coversPoint_eq (Place.isIn_of_mem_placesUnder tree .root member) known

/-- A leaf over a point of the text is the innermost place there. -/
theorem atPoint_of_isLeaf {leaf : Place} (inside : leaf.IsIn tree) (isLeaf : leaf.isLeaf)
    {row column : Nat} (known : row < (Text.lines text).length)
    (within : column ≤ (Text.lineAt text row).length)
    (covers : leaf.node.coversPoint ⟨row, Text.byteColumn (Text.lineAt text row) column⟩) :
    tree.atPoint ⟨row, Text.byteColumn (Text.lineAt text row) column⟩ = leaf := by
  rw [← Text.ofBytes_lineOffset text known within, ← Text.take_utf8] at covers ⊢
  have inText := Text.byteOffset_le text (Text.lineOffset (Text.lines text) row column)
  rw [overText.coversPoint_eq inside inText] at covers
  rw [overText.atPoint_eq inText]
  exact overText.nested.atByte_eq (inside.mem_leaves isLeaf) covers

end IsOver

end Node

end ModelAssist.Tree
