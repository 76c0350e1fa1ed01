import ModelAssist.Proofs.Import.Closure
import ModelAssist.Proofs.Symbol.Cursor
import ModelAssist.Workspace.Definition

/-!
# The file that a `use` path under a cursor names

A jump finds the file of a `use` statement from a position, and the import graph from the list of
all statements of the text.  Both find the same file, from every position on the path of the
statement (`Workspace.jump_agrees_with_imports`).
-/

namespace ModelAssist

open ModelAssist.Tree (Node Place)

/-! ### Listed statements and their places -/

/-- A walk through places of a tree lists places of the tree. -/
theorem Tree.isIn_of_mem_outermostFrom {tree : Node} {kind : String} {pending : List Place}
    {place : Place} (inside : ∀ other ∈ pending, other.IsIn tree)
    (member : place ∈ outermostFrom kind pending) : place.IsIn tree := by
  fun_induction outermostFrom kind pending with
  | case1 => cases member
  | case2 first rest _ ih =>
      rcases List.mem_cons.mp member with rfl | later
      · exact inside place List.mem_cons_self
      · exact ih (fun other among => inside other (List.mem_cons_of_mem _ among)) later
  | case3 first rest _ ih =>
      refine ih (fun other among => ?_) member
      rcases List.mem_append.mp among with below | after
      · obtain ⟨index, known, rfl⟩ := List.mem_mapIdx.mp below
        exact .child (inside first List.mem_cons_self) (List.getElem?_eq_getElem known)
      · exact inside other (List.mem_cons_of_mem _ after)

namespace Extraction

/-- Holds of a `use` statement that is listed for a tree and whose path is a leaf, over the
characters of a row from one column up to another. -/
structure IsUse (tree : Node) (text : List Char) (statement : UseStatement) (place : Place)
    (path : Node) (row first last : Nat) : Prop where
  listed : place ∈ (Place.root tree).outermost "use_statement"
  stated : useStatement? place.node = some statement
  named : place.node.childByField? "path" = some path
  isPath : path.kind = "use_path"
  isLeaf : path.children = []
  covers : path.CoversColumns text row first last

namespace IsUse

variable {tree path : Node} {text : List Char} {statement : UseStatement} {place : Place}
  {row first last : Nat} (use : IsUse tree text statement place path row first last)
include use

theorem mem_useStatements : statement ∈ useStatements tree :=
  List.mem_filterMap.mpr ⟨place, use.listed, use.stated⟩

theorem target_eq : statement.target = path.text := by
  have stated := use.stated
  simp only [useStatement?, use.named, Option.bind_eq_bind, Option.bind_some] at stated
  split at stated
  · cases stated
  · rw [← Option.some.inj stated]

/-- The path of the statement has a place below that of the statement. -/
theorem exists_leaf : ∃ leaf : Place, leaf.node = path ∧ leaf.IsIn tree ∧ leaf.isLeaf := by
  have pending : ∀ other ∈ [Place.root tree], other.IsIn tree := by
    intro other among
    rw [List.mem_singleton.mp among]
    exact .root
  have inside := Tree.isIn_of_mem_outermostFrom pending use.listed
  obtain ⟨index, found⟩ := List.getElem?_of_mem (List.mem_of_find?_eq_some use.named)
  refine ⟨place.childAt index path, rfl, .child inside found, ?_⟩
  exact List.isEmpty_iff.mpr use.isLeaf

end IsUse

end Extraction

/-- The use path at a column of its text is the target of its statement. -/
theorem Reference.usePathAt?_eq {tree path : Node} {content : String} {statement : UseStatement}
    {place : Place} {row first last column : Nat} (overText : tree.IsOver content.toList)
    (use : Extraction.IsUse tree content.toList statement place path row first last)
    (atLeast : first ≤ column) (below : column < last) :
    usePathAt? tree content row column = some statement.target := by
  obtain ⟨leaf, rfl, inside, isLeaf⟩ := use.exists_leaf
  have isPath : leaf.kind = "use_path" := use.isPath
  rw [usePathAt?, placeAt_of_covers overText inside isLeaf use.covers atLeast below,
    Place.selfAndAbove, usePathFrom?, if_pos isPath, use.target_eq]

namespace Workspace

variable {workspace : Workspace} {path : Path} {text : String} {tree : Node}

/-- The file of a use path is the model file it resolves to beside the document. -/
theorem usedFile?_eq [Host] {target : String} {row column : Nat}
    (parsed : workspace.treeFor? path.normalize text = some tree)
    (found : Reference.usePathAt? tree text row (column - 1) = some target) :
    workspace.usedFile? path text row column =
      if isModelName target then some (ImportGraph.resolve target path.normalize.parent)
      else none := by
  simp only [usedFile?, parsed, found, Option.bind_eq_bind, Option.bind_some]

/-- **A jump from the path of a `use` statement leads where the import graph follows it.**  If the
statement names no file, the jump leads nowhere. -/
theorem jump_agrees_with_imports [Host]
    (parsed : workspace.treeFor? path.normalize text = some tree)
    (overText : tree.IsOver text.toList) {statement : UseStatement} {place : Place}
    {pathNode : Node} {row first last : Nat}
    (use : Extraction.IsUse tree text.toList statement place pathNode row first last)
    {column : Nat} (behind : first < column) (within : column ≤ last) :
    (statement.isFile → ∃ target,
      workspace.usedFile? path text row column = some target ∧
      (∀ other, (statement, other) ∈
        workspace.imports.targets path.normalize text path.normalize.parent ↔ other = target) ∧
      target ∈ workspace.imports.reachableFrom path text none) ∧
    (¬ statement.isFile → workspace.usedFile? path text row column = none) := by
  have found : Reference.usePathAt? tree text row (column - 1) = some statement.target := by
    apply Reference.usePathAt?_eq overText use
    · exact Nat.le_sub_one_of_lt behind
    · omega
  have listed : statement ∈ workspace.imports.useStatements path.normalize text := by
    change statement ∈ workspace.useStatements path.normalize text
    rw [useStatements, parsed]
    exact use.mem_useStatements
  rw [usedFile?_eq parsed found]
  constructor
  · intro isFile
    refine ⟨_, if_pos isFile, fun other => ?_, ?_⟩
    · rw [ImportGraph.pair_mem_targets_iff]
      exact ⟨fun ⟨_, _, same⟩ => same, fun same => ⟨listed, isFile, same⟩⟩
    · apply ImportGraph.mem_reachable_iff.mpr
      exact ⟨_, ⟨statement, listed, isFile, rfl⟩, .refl⟩
  · intro notFile
    exact if_neg notFile

/-! ### Two statements in a line behind a comment -/

private def jumps : String := "/*é*/use b.ump;use ä.ump;"

private def jumpsNode := Node.spanning jumps.toList

private def firstUse : Node :=
  jumpsNode "use_statement" none 6 16
    [jumpsNode "use" none 6 9 [], jumpsNode "use_path" (some "path") 10 15 [],
      jumpsNode ";" none 15 16 []]

private def secondPath : Node := jumpsNode "use_path" (some "path") 20 26 []

private def secondUse : Node :=
  jumpsNode "use_statement" none 16 27
    [jumpsNode "use" none 16 19 [], secondPath, jumpsNode ";" none 26 27 []]

private def jumpsTree : Node :=
  jumpsNode "source_file" none 0 27 [jumpsNode "comment" none 0 6 [], firstUse, secondUse]

private def jumpsGrammar : Grammar where
  parse := fun _ => jumpsTree
  nextSymbols := fun _ => []
  definitions := []
  references := []
  completions := []

private def jumpsBench : Workspace where
  grammar := some jumpsGrammar
  documents := ∅
  files := ⟨⟨[]⟩, .allowed⟩
  index := ∅

section

open scoped Trial

theorem jump_agrees_with_imports_comment :
    jumpsBench.treeFor? (Path.ofText "/w/a.ump").normalize jumps = some jumpsTree ∧
      jumpsTree.IsOver jumps.toList ∧
      Extraction.IsUse jumpsTree jumps.toList ⟨"ä.ump", 0⟩ ⟨secondUse, [⟨jumpsTree, 2⟩]⟩ secondPath
        0 19 24 ∧
      jumpsBench.usedFile? (Path.ofText "/w/a.ump") jumps 0 24 = some ⟨.root, ["w", "ä.ump"]⟩ ∧
      (⟨.root, ["w", "ä.ump"]⟩ : Path) ∈
        jumpsBench.imports.reachableFrom (Path.ofText "/w/a.ump") jumps none := by
  have parsed : jumpsBench.treeFor? (Path.ofText "/w/a.ump").normalize jumps = some jumpsTree := rfl
  have overText : jumpsTree.IsOver jumps.toList := by decide +kernel
  have listed : (Place.root jumpsTree).outermost "use_statement" =
      [⟨firstUse, [⟨jumpsTree, 1⟩]⟩, ⟨secondUse, [⟨jumpsTree, 2⟩]⟩] := by
    simp [Place.outermost, Tree.outermostFrom, Place.root, Place.kind, Node.kind, Node.info,
      Place.children, Node.children, Place.childAt, jumpsTree, firstUse, secondUse, jumpsNode,
      Node.spanning]
  have use : Extraction.IsUse jumpsTree jumps.toList ⟨"ä.ump", 0⟩ ⟨secondUse, [⟨jumpsTree, 2⟩]⟩
      secondPath 0 19 24 := by
    refine ⟨?_, by decide +kernel, rfl, rfl, rfl, ?_⟩
    · rw [listed]
      exact List.mem_cons_of_mem _ List.mem_cons_self
    · exact ⟨by decide +kernel, by decide +kernel, by decide, by decide⟩
  obtain ⟨leads, -⟩ := jump_agrees_with_imports parsed overText use (by decide : 19 < 24)
    (by decide)
  obtain ⟨target, jump, paired, reached⟩ := leads (by decide)
  have target_eq : jumpsBench.usedFile? (Path.ofText "/w/a.ump") jumps 0 24 =
      some ⟨.root, ["w", "ä.ump"]⟩ := by
    decide +kernel
  obtain rfl : target = ⟨.root, ["w", "ä.ump"]⟩ := Option.some.inj (jump.symm.trans target_eq)
  exact ⟨parsed, overText, use, jump, reached⟩

end

end Workspace

end ModelAssist
