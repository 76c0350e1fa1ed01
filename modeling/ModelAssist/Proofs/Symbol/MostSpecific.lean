import ModelAssist.Proofs.Completion.Scope
import ModelAssist.Proofs.Grammar.References
import ModelAssist.Proofs.Symbol.Reference
import ModelAssist.Proofs.Tree.Siblings

/-!
# The most specific pattern decides

Only the captures of fewest bytes, and then of fewest kinds, count for what a node may name, and
only the first of fewest bytes for the scope at a point.  So the name of a parent in an `isA`
declaration is a class, an interface or a trait wherever siblings are apart
(`Reference.kindsAt?_parent`), although names of types may be enumerations elsewhere.
-/

namespace ModelAssist

open ModelAssist.Tree

namespace Tree

/-- Holds of the name of a parent in an `isA` declaration. -/
def Place.IsParentName (word : Place) : Prop :=
  Grammar.parentPath <+: word.selfAndAbove.map Place.kind

/-- Holds if all words are leaves with at least one byte. -/
def Node.WordsAreLeaves (tree : Node) : Prop :=
  ∀ word : Place, word.IsIn tree → word.isWord →
    word.isLeaf ∧ word.info.startByte < word.info.endByte

end Tree

namespace Reference

variable {tree : Node} {word : Place}

/-- The captures of references are of words. -/
theorem isWord_of_captured {capture : Capture}
    (captured : capture ∈ Grammar.referencePatterns.captures (Place.root tree)) :
    capture.place.IsIn tree ∧ capture.place.isWord := by
  obtain ⟨place, inside, pattern, member, found, matched, among⟩ :=
    Query.mem_captures_iff.mp captured
  obtain ⟨inmost, kind, isKind, starts⟩ := Grammar.captures_references member
  refine ⟨pattern.isIn_of_matchesAt inside matched among, ?_⟩
  obtain ⟨-, kinds⟩ := pattern.kinds_of_matchesAt inmost matched among
  obtain ⟨rest, path⟩ := starts
  rw [← path] at kinds
  rw [Place.isWord, (List.cons.inj kinds).1]
  exact List.contains_iff_mem.mpr isKind

/-- Where siblings are apart, what covers a word is captured at that word. -/
theorem place_eq_of_covers (apart : tree.SiblingsApart) (leaves : tree.WordsAreLeaves)
    (inside : word.IsIn tree) (isWord : word.isWord) {capture : Capture}
    (captured : capture ∈ Grammar.referencePatterns.captures (Place.root tree))
    (covers : Covers capture word) : capture.place = word := by
  obtain ⟨captureInside, captureWord⟩ := isWord_of_captured captured
  obtain ⟨isLeaf, nonempty⟩ := leaves word inside isWord
  obtain ⟨captureLeaf, -⟩ := leaves capture.place captureInside captureWord
  obtain ⟨start, finish⟩ := covers
  have here : word.node.coversByte word.info.startByte := by
    simp only [Node.coversByte, Bool.and_eq_true, decide_eq_true_eq]
    exact ⟨Nat.le_refl _, nonempty⟩
  have there : capture.place.node.coversByte word.info.startByte := by
    simp only [Node.coversByte, Bool.and_eq_true, decide_eq_true_eq]
    exact ⟨start, Nat.lt_of_lt_of_le nonempty finish⟩
  exact apart.eq_of_isLeaf captureInside inside captureLeaf isLeaf there here

private theorem threeKinds :
    (Extraction.afterTag? tag "reference.class_interface_trait").bind SymbolKind.listOfTag? =
      some [.class, .interface, .trait] := by
  decide +kernel

private theorem fourKinds :
    (Extraction.afterTag? tag "reference.class_interface_trait_enum").bind SymbolKind.listOfTag? =
      some [.class, .interface, .trait, .enumeration] := by
  decide +kernel

/-- What is captured at the name of a parent gives it three kinds, or those with enumerations. -/
theorem admits_parent (isParent : word.IsParentName) {capture : Capture} {kinds : List SymbolKind}
    (captured : capture ∈ Grammar.referencePatterns.captures (Place.root tree))
    (here : capture.place = word) (admits : Admits word capture kinds) :
    kinds = [.class, .interface, .trait] ∨ kinds = [.class, .interface, .trait, .enumeration] := by
  obtain ⟨place, inside, pattern, member, found, matched, among⟩ :=
    Query.mem_captures_iff.mp captured
  obtain ⟨inmost, -⟩ := Grammar.captures_references member
  obtain ⟨name, kinds_⟩ := pattern.kinds_of_matchesAt inmost matched among
  obtain ⟨rest, along⟩ := isParent
  rw [here] at kinds_
  obtain ⟨read, -⟩ := admits_iff.mp admits
  rcases Grammar.names_of_parentPath member (along.trans kinds_) name with three | four
  · rw [three, threeKinds] at read
    exact .inl (Option.some.inj read).symm
  · rw [four, fourKinds] at read
    exact .inr (Option.some.inj read).symm

/-- The name of a parent is captured with three kinds. -/
theorem exists_captured_parent (inside : word.IsIn tree) (isParent : word.IsParentName) :
    ⟨"reference.class_interface_trait", word⟩ ∈
      Grammar.referencePatterns.captures (Place.root tree) := by
  obtain ⟨rest, along⟩ := isParent
  have roleless : Grammar.parentPattern.isRoleless := rfl
  obtain ⟨place, placeInside, -, found, matched, all⟩ :=
    Grammar.parentPattern.exists_matchesAt roleless inside along.symm
  exact Query.mem_captures_iff.mpr ⟨place, placeInside, Grammar.parentPattern,
    Grammar.parentPattern_mem, found, matched, all _ List.mem_cons_self⟩

/-- The name of a parent is a word. -/
theorem isWord_of_isParentName (isParent : word.IsParentName) : word.isWord := by
  obtain ⟨rest, along⟩ := isParent
  rw [Place.isWord, ← (List.cons.inj along).1]
  rfl

/-- **The name of a parent in an `isA` declaration is a class, an interface or a trait.** -/
theorem kindsAt?_parent {grammar : Grammar}
    (patterns : grammar.references = Query.ofText Grammar.referencesText)
    (apart : tree.SiblingsApart) (leaves : tree.WordsAreLeaves) (inside : word.IsIn tree)
    (isParent : word.IsParentName) :
    kindsAt? grammar tree word = some [.class, .interface, .trait] := by
  have isWord := isWord_of_isParentName isParent
  have captured := exists_captured_parent inside isParent
  have admitted : Admits word ⟨"reference.class_interface_trait", word⟩
      [.class, .interface, .trait] :=
    admits_iff.mpr ⟨threeKinds, Nat.le_refl _, Nat.le_refl _⟩
  rw [kindsAt?, patterns, Grammar.ofText_referencesText]
  cases given : kindsAmong? (Grammar.referencePatterns.captures (Place.root tree)) word with
  | none => exact absurd admitted (kindsAmong?_eq_none_iff.mp given _ captured _)
  | some kinds =>
      obtain ⟨capture, listed, admits, least⟩ := (kindsAmong?_eq_some_iff.mp given).exists_least
      have here := place_eq_of_covers apart leaves inside isWord listed admits.covers
      rcases admits_parent isParent listed here admits with rfl | rfl
      · rfl
      · have below := least _ captured _ admitted
        simp [rank, Capture.span, here, Prod.Lex.toLex_le_toLex] at below

end Reference

/-- **The most specific pattern decides.**  This holds of the kinds that any captures give to a node
and of the scope that they give to a point, neither of which depends on captures with other names or
elsewhere; and it makes the names of parents classes, interfaces or traits in every tree where
siblings are apart. -/
theorem most_specific_decides :
    (∀ (captures : List Capture) (place : Place),
      (∀ kinds, Reference.kindsAmong? captures place = some kinds ↔
        Reference.Decides captures place kinds) ∧
      (Reference.kindsAmong? captures place = none ↔
        ∀ capture ∈ captures, ∀ kinds, ¬ Reference.Admits place capture kinds) ∧
      ∀ others : List Capture,
        captures.filter (Reference.concerns place) = others.filter (Reference.concerns place) →
          Reference.kindsAmong? captures place = Reference.kindsAmong? others place) ∧
    (∀ (captures : List Capture) (point : Text.Point),
      (∀ scope, CompletionScope.among? captures point = some scope ↔
        ∃ rest, CompletionScope.Decides captures point rest ∧
          CompletionScope.ofTag? rest = some scope) ∧
      (CompletionScope.among? captures point = none ↔
        (∀ capture ∈ captures, ∀ rest, ¬ CompletionScope.Holds point capture rest) ∨
          ∃ rest, CompletionScope.Decides captures point rest ∧
            (rest = "none" ∨ rest ∉ ["suppress", "use_path", "own_attribute"] ∧
              SymbolKind.listOfTag? rest = none)) ∧
      ∀ others : List Capture,
        captures.filter (CompletionScope.concerns point) =
          others.filter (CompletionScope.concerns point) →
            CompletionScope.among? captures point = CompletionScope.among? others point) ∧
    ∀ (grammar : Grammar) (tree : Node) (word : Place),
      grammar.references = Query.ofText Grammar.referencesText → tree.SiblingsApart →
        tree.WordsAreLeaves → word.IsIn tree → word.IsParentName →
          Reference.kindsAt? grammar tree word = some [.class, .interface, .trait] := by
  refine ⟨fun captures place => ⟨fun kinds => ?_, ?_, fun others same => ?_⟩,
    fun captures point => ⟨fun scope => ?_, ?_, fun others same => ?_⟩, ?_⟩
  · exact Reference.kindsAmong?_eq_some_iff
  · exact Reference.kindsAmong?_eq_none_iff
  · exact Reference.kindsAmong?_congr same
  · exact CompletionScope.among?_eq_some_iff
  · rw [CompletionScope.among?_eq_none_iff]
    simp only [CompletionScope.ofTag?_eq_none_iff]
  · exact CompletionScope.among?_congr same
  · intro grammar tree word patterns apart leaves inside isParent
    exact Reference.kindsAt?_parent patterns apart leaves inside isParent

/-! ### Examples

Grammars whose parser gives one tree. -/

section

private def always (tree : Node) : Grammar where
  parse := fun _ => tree
  nextSymbols := fun _ => []
  definitions := []
  references := Query.ofText Grammar.referencesText
  completions := []

/-! The name of a parent of a class. -/

private def childClass : List Char := "class A { isA B; }".toList

private def childNode := Node.spanning childClass

private def parentWord : Node := childNode "identifier" none 14 15 []

private def parentQualified : Node := childNode "qualified_name" none 14 15 [parentWord]

private def parentType : Node := childNode "type_name" none 14 15 [parentQualified]

private def parentList : Node := childNode "type_list" none 14 15 [parentType]

private def parentClause : Node := childNode "isa_declaration" none 10 16 [parentList]

private def childName : Node := childNode "identifier" (some "name") 6 7 []

private def childTree : Node :=
  childNode "class_definition" none 0 18 [childName, parentClause]

private def atParent : Place :=
  ⟨parentWord, [⟨parentQualified, 0⟩, ⟨parentType, 0⟩, ⟨parentList, 0⟩, ⟨parentClause, 0⟩,
    ⟨childTree, 1⟩]⟩

private theorem isIn_childTree : atParent.IsIn childTree := by
  have clause : (Place.root childTree).node.children[1]? = some parentClause := rfl
  have list : parentClause.children[0]? = some parentList := rfl
  have type : parentList.children[0]? = some parentType := rfl
  have qualified : parentType.children[0]? = some parentQualified := rfl
  have word : parentQualified.children[0]? = some parentWord := rfl
  exact .child (.child (.child (.child (.child .root clause) list) type) qualified) word

private theorem wordsAreLeaves_of_listed {tree : Node}
    (listed : ∀ word ∈ (Place.root tree).subtree, word.isWord →
      word.isLeaf ∧ word.info.startByte < word.info.endByte) : tree.WordsAreLeaves :=
  fun word inside => listed word (Place.mem_subtree_root_iff.mpr inside)

private theorem childTree_isNested : childTree.IsNested := by
  have overText : childTree.IsOver childClass := by decide +kernel
  exact overText.nested

/-- A capture of the name of the class, which does not cover the name of its parent. -/
private def elsewhere : Capture :=
  ⟨"reference.class", ⟨childName, [⟨childTree, 0⟩]⟩⟩

/-- In this tree the name after the declaration is asked for as a class, an interface or a trait. -/
theorem most_specific_decides_parent :
    childTree.SiblingsApart ∧ childTree.WordsAreLeaves ∧ atParent.IsIn childTree ∧
      atParent.IsParentName ∧
      Reference.kindsAt? (always childTree) childTree atParent =
        some [.class, .interface, .trait] ∧
      Reference.kindsAmong? [elsewhere] atParent = Reference.kindsAmong? [] atParent ∧
      CompletionScope.among? [elsewhere] ⟨0, 6⟩ = CompletionScope.among? [] ⟨0, 6⟩ := by
  obtain ⟨kinds, scopes, parents⟩ := most_specific_decides
  have apart := childTree_isNested.siblingsApart
  have leaves : childTree.WordsAreLeaves := wordsAreLeaves_of_listed (by decide +kernel)
  have isParent : atParent.IsParentName := ⟨["class_definition"], rfl⟩
  refine ⟨apart, leaves, isIn_childTree, isParent, ?_, ?_, ?_⟩
  · exact parents (always childTree) childTree atParent rfl apart leaves isIn_childTree isParent
  · apply (kinds [elsewhere] atParent).2.2
    exact List.filter_cons_of_neg (by decide +kernel)
  · apply (scopes [elsewhere] ⟨0, 6⟩).2.2
    exact List.filter_cons_of_neg (by decide +kernel)

/-! The name of a parent, and another identifier over the same byte, which does not lie inside the
node above it. -/

private def strayText : List Char := "isA B; key {}".toList

private def strayNode := Node.spanning strayText

private def strayWord : Node := strayNode "identifier" none 4 5 []

private def strayQualified : Node := strayNode "qualified_name" none 4 5 [strayWord]

private def strayType : Node := strayNode "type_name" none 4 5 [strayQualified]

private def strayList : Node := strayNode "type_list" none 4 5 [strayType]

private def strayClause : Node := strayNode "isa_declaration" none 0 6 [strayList]

private def strayKey : Node := strayNode "key_definition" none 7 13 [strayWord]

private def strayTree : Node := strayNode "source_file" none 0 13 [strayClause, strayKey]

private def atStray : Place :=
  ⟨strayWord, [⟨strayQualified, 0⟩, ⟨strayType, 0⟩, ⟨strayList, 0⟩, ⟨strayClause, 0⟩,
    ⟨strayTree, 0⟩]⟩

private def atKey : Place := ⟨strayWord, [⟨strayKey, 0⟩, ⟨strayTree, 1⟩]⟩

private theorem isIn_strayTree : atStray.IsIn strayTree := by
  have clause : (Place.root strayTree).node.children[0]? = some strayClause := rfl
  have list : strayClause.children[0]? = some strayList := rfl
  have type : strayList.children[0]? = some strayType := rfl
  have qualified : strayType.children[0]? = some strayQualified := rfl
  have word : strayQualified.children[0]? = some strayWord := rfl
  exact .child (.child (.child (.child (.child .root clause) list) type) qualified) word

private def keyPattern : Pattern :=
  .withChild "key_definition" none (.leaf "identifier" ["reference.attribute"]) []

private theorem captured_atKey :
    ⟨"reference.attribute", atKey⟩ ∈ Grammar.referencePatterns.captures (Place.root strayTree) := by
  have key : (Place.root strayTree).node.children[1]? = some strayKey := rfl
  have word : strayKey.children[0]? = some strayWord := rfl
  have inside : atKey.IsIn strayTree := .child (.child .root key) word
  have roleless : keyPattern.isRoleless := rfl
  have along : atKey.selfAndAbove.map Place.kind = keyPattern.path ++ ["source_file"] := rfl
  have member : keyPattern ∈ Grammar.referencePatterns := by decide +kernel
  obtain ⟨place, placeInside, -, found, matched, all⟩ :=
    keyPattern.exists_matchesAt roleless inside along
  exact Query.mem_captures_iff.mpr ⟨place, placeInside, keyPattern, member, found, matched,
    all _ List.mem_cons_self⟩

/-- That siblings themselves are disjoint is not enough: what sticks out of another node may cover
the name of a parent as well. -/
theorem not_kindsAt?_parent :
    ¬ ∀ (grammar : Grammar) (tree : Node) (word : Place),
      grammar.references = Query.ofText Grammar.referencesText → tree.SiblingsDisjoint →
        tree.WordsAreLeaves → word.IsIn tree → word.IsParentName →
          Reference.kindsAt? grammar tree word = some [.class, .interface, .trait] := by
  intro parents
  have disjoint : strayTree.SiblingsDisjoint := by
    have listed : ∀ place ∈ (Place.root strayTree).subtree,
        place.node.children.Pairwise fun first second =>
          first.info.endByte ≤ second.info.startByte := by
      decide +kernel
    exact Node.siblingsDisjoint_of_ordered fun place inside =>
      listed place (Place.mem_subtree_root_iff.mpr inside)
  have leaves : strayTree.WordsAreLeaves := wordsAreLeaves_of_listed (by decide +kernel)
  have isParent : atStray.IsParentName := ⟨["source_file"], rfl⟩
  have three :=
    parents (always strayTree) strayTree atStray rfl disjoint leaves isIn_strayTree isParent
  have captured := captured_atKey
  rw [← Grammar.ofText_referencesText] at captured
  have admitted : Reference.Admits atStray ⟨"reference.attribute", atKey⟩ [.attribute] :=
    Reference.admits_iff.mpr ⟨by decide +kernel, by decide⟩
  obtain ⟨capture, -, admits, least⟩ := (Reference.kindsAmong?_eq_some_iff.mp three).exists_least
  have below := least _ captured _ admitted
  obtain ⟨start, finish⟩ := admits.covers
  have startsAt : atStray.info.startByte = 4 := rfl
  have endsAt : atStray.info.endByte = 5 := rfl
  have single : Capture.span ⟨"reference.attribute", atKey⟩ = 1 := rfl
  rw [Reference.rank, Reference.rank, Prod.Lex.toLex_le_toLex, single, Capture.span] at below
  simp only [List.length_cons, List.length_nil] at below
  omega

end

end ModelAssist
