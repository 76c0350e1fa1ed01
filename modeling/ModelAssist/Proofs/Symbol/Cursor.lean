import ModelAssist.Proofs.Tree.Layout
import ModelAssist.Symbol.Reference

/-!
# The word under a cursor

A word is found from every position on it, and also from the position behind it unless another word
is there (`Reference.finds_word`).  A word without characters has no position on it and is found
from none (`Reference.not_finds_word`).
-/

namespace ModelAssist

open ModelAssist.Text (byteColumn lineAt)
open ModelAssist.Tree (Node Place)

/-- Holds of a node over the characters of a row from one column up to another. -/
structure Tree.Node.CoversColumns (node : Node) (text : List Char) (row first last : Nat) :
    Prop where
  start : node.info.startPoint = ⟨row, byteColumn (lineAt text row) first⟩
  finish : node.info.endPoint = ⟨row, byteColumn (lineAt text row) last⟩
  ordered : first ≤ last
  within : last ≤ (lineAt text row).length

/-- The byte columns of a row are ordered like the columns. -/
theorem Tree.Node.CoversColumns.coversPoint {node : Node} {text : List Char}
    {row first last column : Nat} (covers : node.CoversColumns text row first last)
    (atLeast : first ≤ column) (below : column < last) :
    node.coversPoint ⟨row, byteColumn (lineAt text row) column⟩ := by
  have start : byteColumn (lineAt text row) first ≤ byteColumn (lineAt text row) column :=
    Text.byteOffset_mono _ atLeast
  have finish : byteColumn (lineAt text row) column < byteColumn (lineAt text row) last :=
    Text.byteOffset_lt below covers.within
  rw [Node.coversPoint, covers.start, covers.finish]
  simp [Text.Point.atMost, Text.Point.before, start, finish]

namespace Reference

/-- The reference that the word at a place makes. -/
def of (grammar : Grammar) (root : Node) (word : Place) : Reference where
  word := word.node.text
  kinds := kindsAt? grammar root word
  enclosingClass := word.enclosingClass?
  enclosingStateMachine := word.rootStateMachine?

/-- The symbol at a position is that of the word there. -/
theorem atPosition?_eq_some {grammar : Grammar} {root : Node} {content : String}
    {line column : Nat} {word : Place} (found : wordPlace? root content line column = some word) :
    atPosition? grammar root content line column = some (of grammar root word) := by
  rw [atPosition?, found]
  rfl

/-- Holds if a word over some columns of a row is found from each of them, and also from the
position behind them unless another word is there. -/
def FindsWord (grammar : Grammar) (tree : Node) (content : String) (word : Place)
    (row first last : Nat) : Prop :=
  (∀ column, first ≤ column → column < last →
    atPosition? grammar tree content row column = some (of grammar tree word)) ∧
  (¬ (placeAt tree content row last).isWord →
    atPosition? grammar tree content row last = some (of grammar tree word))

section Leaf

variable {tree : Node} {content : String} (overText : tree.IsOver content.toList) {leaf : Place}
  (inside : leaf.IsIn tree) (isLeaf : leaf.isLeaf) {row first last : Nat}
  (covers : leaf.node.CoversColumns content.toList row first last)
include overText inside isLeaf covers

/-- The innermost place at a column of a leaf is the leaf. -/
theorem placeAt_of_covers {column : Nat} (atLeast : first ≤ column) (below : column < last) :
    placeAt tree content row column = leaf :=
  have inLine := Nat.lt_of_lt_of_le below covers.within
  overText.atPoint_of_isLeaf inside isLeaf (Text.lt_length_lines inLine) (Nat.le_of_lt inLine)
    (covers.coversPoint atLeast below)

/-- **A word with characters is found from all its positions.** -/
theorem finds_word (grammar : Grammar) (isWord : leaf.isWord) (filled : first < last) :
    FindsWord grammar tree content leaf row first last := by
  constructor
  · intro column atLeast below
    have here := placeAt_of_covers overText inside isLeaf covers atLeast below
    apply atPosition?_eq_some
    simp only [wordPlace?, here, isWord, if_true]
  · intro other
    have before := placeAt_of_covers overText inside isLeaf covers (Nat.le_sub_one_of_lt filled)
      (Nat.sub_one_lt_of_lt filled)
    apply atPosition?_eq_some
    simp only [wordPlace?, before, isWord, other, Nat.ne_zero_of_lt filled, if_true, if_false,
      Bool.false_eq_true]

end Leaf

/-! ### A trait with a name and with a gap in its list of parents -/

private def draft : String := "trait É { isA ; }"

private def draftNode := Node.spanning draft.toList

private def draftName : Node := draftNode "identifier" (some "name") 6 8 []

private def gap : Node := draftNode "identifier" none 15 15 []

private def draftParents : Node := draftNode "isa_declaration" none 11 16 [gap]

private def draftTrait : Node := draftNode "trait_definition" none 0 18 [draftName, draftParents]

private def draftTree : Node := draftNode "source_file" none 0 18 [draftTrait]

private def atName : Place := ⟨draftName, [⟨draftTrait, 0⟩, ⟨draftTree, 0⟩]⟩

private def atGap : Place := ⟨gap, [⟨draftParents, 0⟩, ⟨draftTrait, 1⟩, ⟨draftTree, 0⟩]⟩

private theorem isIn_draftTree {index : Nat} {child : Node}
    (found : draftTrait.children[index]? = some child) :
    Place.IsIn draftTree ⟨child, [⟨draftTrait, index⟩, ⟨draftTree, 0⟩]⟩ :=
  have atTrait : (Place.root draftTree).node.children[0]? = some draftTrait := rfl
  .child (.child .root atTrait) found

private def wordless : Grammar where
  parse := fun _ => draftTree
  nextSymbols := fun _ => []
  definitions := []
  references := []
  completions := []

private theorem isOver_draftTree : draftTree.IsOver draft.toList := by
  decide +kernel

theorem finds_word_trait :
    draftTree.IsOver draft.toList ∧ atName.IsIn draftTree ∧ atName.isLeaf ∧ atName.isWord ∧
      draftName.CoversColumns draft.toList 0 6 7 ∧
      atPosition? wordless draftTree draft 0 7 = some ⟨"É", none, some "É", none⟩ := by
  have inside : atName.IsIn draftTree := isIn_draftTree rfl
  have covers : draftName.CoversColumns draft.toList 0 6 7 :=
    ⟨by decide +kernel, by decide +kernel, by decide, by decide⟩
  obtain ⟨-, behind⟩ :=
    finds_word isOver_draftTree inside rfl covers wordless (by decide) (by decide)
  refine ⟨isOver_draftTree, inside, rfl, by decide, covers, ?_⟩
  rw [behind (by decide +kernel)]
  decide +kernel

/-- A word without characters is not found where it stands. -/
theorem not_finds_word :
    ¬ ∀ (grammar : Grammar) (tree : Node) (content : String) (word : Place) (row first last : Nat),
      tree.IsOver content.toList → word.IsIn tree → word.isLeaf → word.isWord →
      word.node.CoversColumns content.toList row first last →
      FindsWord grammar tree content word row first last := by
  intro finds
  have inside : atGap.IsIn draftTree := .child (isIn_draftTree rfl) rfl
  have covers : gap.CoversColumns draft.toList 0 14 14 :=
    ⟨by decide +kernel, by decide +kernel, by decide, by decide⟩
  obtain ⟨-, behind⟩ :=
    finds wordless draftTree draft atGap 0 14 14 isOver_draftTree inside rfl (by decide) covers
  have nothing : atPosition? wordless draftTree draft 0 14 = none := by
    decide +kernel
  exact Option.some_ne_none _ ((behind (by decide +kernel)).symm.trans nothing)

end Reference

end ModelAssist
