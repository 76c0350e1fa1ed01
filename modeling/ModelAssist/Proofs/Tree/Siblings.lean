import ModelAssist.Proofs.Tree.Layout

/-!
# Siblings apart

Two places of a tree lie on one way to the root, or at or below two siblings
(`Place.IsIn.onOneWay_or_forks`).  So where siblings, with all that lies below them, share no byte
(`Node.SiblingsApart`), places that share one lie on one way (`Node.SiblingsApart.onOneWay`).  That
the siblings themselves share no byte is enough for this where children lie inside their parents
(`Node.SiblingsDisjoint.siblingsApart`), as in a nested tree.
-/

namespace ModelAssist.Tree

/-- Holds of two places at or below two children of one place. -/
def Place.Forks (tree : Node) (one two : Place) : Prop :=
  ∃ (parent : Place) (first second : Nat) (left right : Node), parent.IsIn tree ∧ first ≠ second ∧
    parent.node.children[first]? = some left ∧ parent.node.children[second]? = some right ∧
      parent.childAt first left ∈ one.selfAndAbove ∧ parent.childAt second right ∈ two.selfAndAbove

/-- Holds if no byte belongs to two children of one node. -/
def Node.SiblingsDisjoint (tree : Node) : Prop :=
  ∀ parent : Place, parent.IsIn tree → ∀ (first second : Nat) (left right : Node), first ≠ second →
    parent.node.children[first]? = some left → parent.node.children[second]? = some right →
      ∀ byte, left.coversByte byte → ¬ right.coversByte byte

/-- Holds if no byte belongs both to what lies at or below a child and to what lies at or below
another child of the same node. -/
def Node.SiblingsApart (tree : Node) : Prop :=
  ∀ one two : Place, one.IsIn tree → two.IsIn tree → Place.Forks tree one two →
    ∀ byte, one.node.coversByte byte → ¬ two.node.coversByte byte

variable {tree : Node}

namespace Place

/-- Holds if one of two places lies at or above the other. -/
def OnOneWay (one two : Place) : Prop :=
  one ∈ two.selfAndAbove ∨ two ∈ one.selfAndAbove

theorem mem_selfAndAbove_childAt (place : Place) (index : Nat) (child : Node) :
    place ∈ (place.childAt index child).selfAndAbove :=
  List.mem_cons_of_mem _ List.mem_cons_self

/-- The root is above every place of its tree, or is that place itself. -/
theorem root_mem_selfAndAbove {place : Place} (inside : place.IsIn tree) :
    Place.root tree ∈ place.selfAndAbove := by
  induction inside with
  | root => exact List.mem_cons_self
  | child _ _ ih => exact mem_selfAndAbove_trans (mem_selfAndAbove_childAt ..) ih

/-- The way to a place above passes through one of the children there. -/
theorem eq_or_exists_childAt {place above : Place} (inside : place.IsIn tree)
    (member : above ∈ place.selfAndAbove) :
    above = place ∨ ∃ index child, above.node.children[index]? = some child ∧
      above.childAt index child ∈ place.selfAndAbove := by
  induction inside with
  | root => exact .inl (List.mem_singleton.mp member)
  | @child parent inside index node found ih =>
      rcases List.mem_cons.mp member with here | higher
      · exact .inl here
      · right
        rcases ih higher with rfl | ⟨index', child, found', between⟩
        · exact ⟨index, node, found, List.mem_cons_self⟩
        · exact ⟨index', child, found', List.mem_cons_of_mem _ between⟩

namespace IsIn

/-- **Two places lie on one way to the root, or the ways fork.** -/
theorem onOneWay_or_forks {one two : Place} (first : one.IsIn tree) (second : two.IsIn tree) :
    OnOneWay one two ∨ Forks tree one two := by
  induction first with
  | root => exact .inl (.inl (root_mem_selfAndAbove second))
  | @child parent inside index node found ih =>
      rcases ih with (above | below) | forks
      -- The way to the second place comes by the parent of the first one.
      · rcases eq_or_exists_childAt second above with rfl | ⟨index', node', found', between⟩
        · exact .inl (.inr (mem_selfAndAbove_childAt ..))
        · by_cases same : index = index'
          · subst same
            rw [found] at found'
            cases found'
            exact .inl (.inl between)
          · exact .inr ⟨parent, index, index', node, node', inside, same, found, found',
              List.mem_cons_self, between⟩
      · exact .inl (.inr (List.mem_cons_of_mem _ below))
      · obtain ⟨top, index', index'', left, right, topInside, apart, atLeft, atRight, one_, two_⟩ :=
          forks
        exact .inr ⟨top, index', index'', left, right, topInside, apart, atLeft, atRight,
          List.mem_cons_of_mem _ one_, two_⟩

end IsIn

end Place

namespace Node

/-- Places that share a byte lie on one way to the root. -/
theorem SiblingsApart.onOneWay (apart : tree.SiblingsApart) {one two : Place}
    (first : one.IsIn tree) (second : two.IsIn tree) {byte : Nat} (here : one.node.coversByte byte)
    (there : two.node.coversByte byte) : one.OnOneWay two := by
  rcases first.onOneWay_or_forks second with way | forks
  · exact way
  · exact absurd there (apart one two first second forks byte here)

/-- A leaf that shares a byte with another leaf is that leaf. -/
theorem SiblingsApart.eq_of_isLeaf (apart : tree.SiblingsApart) {one two : Place}
    (first : one.IsIn tree) (second : two.IsIn tree) (oneLeaf : one.isLeaf) (twoLeaf : two.isLeaf)
    {byte : Nat} (here : one.node.coversByte byte) (there : two.node.coversByte byte) :
    one = two := by
  rcases apart.onOneWay first second here there with above | above
  · exact second.eq_of_isLeaf_above above oneLeaf
  · exact (first.eq_of_isLeaf_above above twoLeaf).symm

/-- Holds if the children of all nodes lie inside these. -/
def HoldsChildren (tree : Node) : Prop :=
  ∀ place : Place, place.IsIn tree → ∀ child ∈ place.node.children,
    place.info.startByte ≤ child.info.startByte ∧ child.info.endByte ≤ place.info.endByte

/-- What covers a byte lies below nodes that cover it too. -/
theorem HoldsChildren.coversByte (holds : tree.HoldsChildren) {place above : Place} {byte : Nat}
    (inside : place.IsIn tree) (covers : place.node.coversByte byte)
    (member : above ∈ place.selfAndAbove) : above.node.coversByte byte := by
  induction inside with
  | root =>
      rw [List.mem_singleton.mp member]
      exact covers
  | @child parent inside index child found ih =>
      rcases List.mem_cons.mp member with rfl | higher
      · exact covers
      · apply ih ?_ higher
        obtain ⟨start, finish⟩ := holds parent inside child (List.mem_of_getElem? found)
        rw [Place.info] at start finish
        have here : child.coversByte byte := covers
        simp only [Node.coversByte, Bool.and_eq_true, decide_eq_true_eq] at here ⊢
        omega

/-- Siblings that are disjoint are apart if children lie inside their parents. -/
theorem SiblingsDisjoint.siblingsApart (disjoint : tree.SiblingsDisjoint)
    (holds : tree.HoldsChildren) : tree.SiblingsApart := by
  intro one two oneInside twoInside forks byte here there
  obtain ⟨parent, first, second, left, right, inside, differ, atLeft, atRight, oneBelow,
    twoBelow⟩ :=
    forks
  exact disjoint parent inside first second left right differ atLeft atRight byte
    (holds.coversByte oneInside here oneBelow) (holds.coversByte twoInside there twoBelow)

/-- Siblings in the order of the text are disjoint. -/
theorem siblingsDisjoint_of_ordered
    (ordered : ∀ place : Place, place.IsIn tree → place.node.children.Pairwise fun first second =>
      first.info.endByte ≤ second.info.startByte) : tree.SiblingsDisjoint := by
  intro parent inside first second left right differ atLeft atRight byte here there
  have apart := List.pairwise_iff_getElem.mp (ordered parent inside)
  obtain ⟨firstKnown, rfl⟩ := List.getElem?_eq_some_iff.mp atLeft
  obtain ⟨secondKnown, rfl⟩ := List.getElem?_eq_some_iff.mp atRight
  simp only [Node.coversByte, Bool.and_eq_true, decide_eq_true_eq] at here there
  rcases Nat.lt_or_gt_of_ne differ with less | greater
  · have order := apart first second firstKnown secondKnown less
    omega
  · have order := apart second first secondKnown firstKnown greater
    omega

/-- In a nested tree siblings are apart. -/
theorem IsNested.siblingsApart (nested : tree.IsNested) : tree.SiblingsApart := by
  have disjoint : tree.SiblingsDisjoint :=
    siblingsDisjoint_of_ordered fun _ inside => (inside.nested nested).children_apart
  exact disjoint.siblingsApart fun _ inside _ among => (inside.nested nested).child_within among

end Node

end ModelAssist.Tree
