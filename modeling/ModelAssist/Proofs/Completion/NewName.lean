import Mathlib.Data.List.TakeWhile
import ModelAssist.Proofs.Completion.PreviousLeaf
import ModelAssist.Proofs.Tree.Layout

/-!
# Where a new name is typed

A completion context says that a new name is typed if the word before the cursor is a definition
keyword, or if the leaf before it ends the type of an attribute.  The leaf comes from the tree, but
the word is scanned in the text (`scannedWord`).  This word ends with the character that the scan
stops at (`getElem?_of_beforeWord`), but it need not be a leaf: it may lie in a comment or be the
end of a longer leaf.

`Misread` lists how the scan may mislead the context, and `isDefinitionName_iff_opensName` says that
there is nothing else: otherwise the context tells the same as the leaf before the cursor.  If the
scanned word and the leaf over its last character are both keywords then the leaf covers exactly
this word (`spans_of_keywords`), since an identifier before blanks ends there and no keyword ends
another one.
-/

namespace ModelAssist.CompletionContext

open ModelAssist.Tree
open ModelAssist.Text (byteOffset isBlank lineAt lineOffset lines utf8)

/-! ### The scan -/

/-- The text before an offset is what the scan stops at, then blanks, then the partial word. -/
structure Scanned (before blanks word : List Char) : Prop where
  blank : ∀ char ∈ blanks, isBlank char
  identifier : ∀ char ∈ word, isIdentifierChar char
  stops : ∀ char ∈ before.head?, isBlank char = false
  apart : blanks = [] → ∀ char ∈ before.head?, isIdentifierChar char = false

/-- A run of characters ends in front of one that fails the test. -/
private theorem fails_of_head?_dropWhile {test : Char → Bool} {text : List Char} {char : Char}
    (head : (text.dropWhile test).head? = some char) : test char = false := by
  have stops := List.head?_dropWhile_not test text
  rw [head] at stops
  exact stops

/-- Before an offset stand the word that ends there, blanks, and the word that the scan takes. -/
theorem scanned_beforeWord (text : List Char) (offset : Nat) :
    ∃ blanks word, text.take offset = (beforeWord text offset).reverse ++ blanks ++ word ∧
      Scanned (beforeWord text offset) blanks word := by
  let behind := (text.take offset).reverse
  let rest := behind.dropWhile isIdentifierChar
  have split : behind = behind.takeWhile isIdentifierChar ++
      (rest.takeWhile isBlank ++ rest.dropWhile isBlank) := by
    rw [List.takeWhile_append_dropWhile, List.takeWhile_append_dropWhile]
  refine ⟨(rest.takeWhile isBlank).reverse, (behind.takeWhile isIdentifierChar).reverse, ?_, ?_⟩
  · have forward := congrArg List.reverse split
    rw [List.reverse_append, List.reverse_append, List.reverse_reverse] at forward
    exact forward
  · refine ⟨?_, ?_, ?_, ?_⟩
    · intro char member
      exact List.mem_takeWhile_imp (List.mem_reverse.mp member)
    · intro char member
      exact List.mem_takeWhile_imp (List.mem_reverse.mp member)
    · intro char head
      exact fails_of_head?_dropWhile head
    · intro none_ char head
      have whole : rest.dropWhile isBlank = rest := by
        conv_rhs => rw [← List.takeWhile_append_dropWhile (p := isBlank) (l := rest),
          List.reverse_eq_nil_iff.mp none_, List.nil_append]
      have first : (rest.dropWhile isBlank).head? = some char := head
      rw [whole] at first
      exact fails_of_head?_dropWhile first

variable {text : List Char} {offset : Nat}

/-- The text before the offset begins with what is before the word, read backwards. -/
theorem take_length_beforeWord (text : List Char) (offset : Nat) :
    text.take (beforeWord text offset).length = (beforeWord text offset).reverse := by
  obtain ⟨blanks, word, split, -⟩ := scanned_beforeWord text offset
  have start : (beforeWord text offset).reverse <+: text := by
    refine List.IsPrefix.trans ?_ (List.take_prefix offset text)
    rw [split, List.append_assoc]
    exact List.prefix_append _ _
  simpa using (List.prefix_iff_eq_take.mp start).symm

/-- The character that the scan stops at. -/
theorem getElem?_of_beforeWord {char : Char} {rest : List Char}
    (before : beforeWord text offset = char :: rest) : text[rest.length]? = some char := by
  have whole := take_length_beforeWord text offset
  rw [before, List.length_cons, List.reverse_cons] at whole
  have last := congrArg (·[rest.length]?) whole
  simpa [List.getElem?_take] using last

/-- What is before a word does not end in a blank. -/
theorem isBlank_of_beforeWord {char : Char} {rest : List Char}
    (before : beforeWord text offset = char :: rest) : isBlank char = false := by
  obtain ⟨blanks, word, -, scanned⟩ := scanned_beforeWord text offset
  exact scanned.stops char (by rw [before]; rfl)

/-- Behind an identifier that the scan stops at there is a blank. -/
theorem isBlank_behind {char : Char} {rest : List Char}
    (before : beforeWord text offset = char :: rest) (identifier : isIdentifierChar char) :
    ∃ blank, text[rest.length + 1]? = some blank ∧ isBlank blank := by
  obtain ⟨blanks, word, split, scanned⟩ := scanned_beforeWord text offset
  cases blanks with
  | nil =>
      have other := scanned.apart rfl char (by rw [before]; rfl)
      rw [identifier] at other
      cases other
  | cons blank blanks =>
      refine ⟨blank, ?_, scanned.blank blank List.mem_cons_self⟩
      have there : (text.take offset)[rest.length + 1]? = some blank := by
        simp [split, before]
      rw [List.getElem?_take] at there
      exact (Option.ite_none_right_eq_some.mp there).2

/-- The word that the scan takes for the one before an offset. -/
def scannedWord (text : List Char) (offset : Nat) : List Char :=
  ((beforeWord text offset).takeWhile isWordChar).reverse

/-- The scanned word ends the text before the offset. -/
theorem take_scannedWord (text : List Char) (offset : Nat) :
    text.take (beforeWord text offset).length =
      text.take ((beforeWord text offset).length - (scannedWord text offset).length) ++
        scannedWord text offset := by
  have whole := take_length_beforeWord text offset
  have split : (beforeWord text offset).reverse =
      ((beforeWord text offset).dropWhile isWordChar).reverse ++ scannedWord text offset := by
    rw [scannedWord, ← List.reverse_append, List.takeWhile_append_dropWhile]
  have front : text.take ((beforeWord text offset).length - (scannedWord text offset).length) =
      ((beforeWord text offset).dropWhile isWordChar).reverse := by
    have lengths := congrArg List.length split
    rw [List.length_append, List.length_reverse] at lengths
    rw [← Nat.min_eq_left (Nat.sub_le (beforeWord text offset).length _), ← List.take_take, whole,
      split, lengths, Nat.add_sub_cancel]
    exact List.take_left
  rw [whole, split, front]

/-- The word that the scan takes lies at the end of what is before the typed word, also in bytes. -/
theorem byteOffset_scannedWord (text : List Char) (offset : Nat) :
    byteOffset text (beforeWord text offset).length =
      byteOffset text ((beforeWord text offset).length - (scannedWord text offset).length) +
        (utf8 (scannedWord text offset)).length := by
  rw [byteOffset, take_scannedWord, Text.utf8_append, List.length_append, byteOffset]

/-! ### Keywords -/

/-- The scan takes a keyword of definitions as a whole. -/
theorem isWordChar_of_keyword {keyword : String} (known : keyword ∈ definitionKeywords) :
    ∀ char ∈ keyword.toList, isWordChar char := by
  have all : ∀ keyword ∈ definitionKeywords, keyword.toList.all isWordChar := by decide
  exact List.all_eq_true.mp (all keyword known)

/-- The scan takes ASCII letters and the underscore only. -/
theorem isAscii_of_isWordChar {char : Char} (letter : isWordChar char) :
    0 < char.toNat ∧ char.toNat < 128 := by
  constructor
  · refine Nat.pos_of_ne_zero fun zero => ?_
    rw [← Char.ofNat_toNat char, zero] at letter
    exact absurd letter (by decide)
  · simp only [isWordChar, Bool.or_eq_true, decide_eq_true_eq] at letter
    rcases letter with letter | rfl
    · exact Text.lt_of_isAlphanum (by rw [Char.isAlphanum, letter, Bool.true_or])
    · decide

/-- What the scan takes is part of identifiers. -/
theorem isIdentifierChar_of_isWordChar {char : Char} (letter : isWordChar char) :
    isIdentifierChar char := by
  simp only [isWordChar, isIdentifierChar, Char.isAlphanum, Bool.or_eq_true] at letter ⊢
  exact letter.imp_left .inl

/-- A blank is no part of a word. -/
theorem not_isBlank_of_isWordChar {char : Char} (letter : isWordChar char) :
    isBlank char = false := by
  have all : ∀ code < 128, isWordChar (Char.ofNat code) → isBlank (Char.ofNat code) = false := by
    decide +kernel
  have own := all char.toNat (isAscii_of_isWordChar letter).2
  rw [Char.ofNat_toNat] at own
  exact own letter

/-- No keyword ends another one. -/
theorem keyword_of_suffix {first second : String} (known : first ∈ definitionKeywords)
    (known' : second ∈ definitionKeywords)
    (ends : utf8 first.toList <:+ utf8 second.toList) : first = second := by
  have all : ∀ first ∈ definitionKeywords, ∀ second ∈ definitionKeywords,
      utf8 first.toList <:+ utf8 second.toList → first = second := by
    decide +kernel
  exact all first known second known' ends

/-! ### The leaf under the scanned word -/

/-- Holds of the nodes that cover exactly the scanned word. -/
structure Spans (node : Node) (text : List Char) (offset : Nat) : Prop where
  start : node.info.startByte =
    byteOffset text ((beforeWord text offset).length - (scannedWord text offset).length)
  finish : node.info.endByte = byteOffset text (beforeWord text offset).length

section Leaf

variable {tree : Node} (overText : tree.IsOver text) {leaf : Place} (inside : leaf.IsIn tree)
include overText inside

/-- The text of a leaf is that of the bytes which it covers. -/
theorem text_eq_of_bytes {bytes : List UInt8}
    (covered : ((utf8 text).take leaf.info.endByte).drop leaf.info.startByte = bytes) :
    leaf.node.text = String.ofList (Text.decodeMarking bytes) := by
  rw [← covered, Node.text, show leaf.node.info.bytes = _ from overText.bytes leaf inside]

/-- A leaf that covers exactly the scanned word has it as its text. -/
theorem text_of_spans (spans : Spans leaf.node text offset) :
    leaf.node.text = String.ofList (scannedWord text offset) := by
  rw [text_eq_of_bytes overText inside rfl, show leaf.info.startByte = _ from spans.start,
    show leaf.info.endByte = _ from spans.finish, Text.take_utf8, take_scannedWord,
    Text.utf8_append]
  conv_rhs => rw [← Text.decodeMarking_utf8 (scannedWord text offset)]
  exact congrArg (fun bytes => String.ofList (Text.decodeMarking bytes)) List.drop_left

/-- A leaf whose text is a keyword covers the bytes of this keyword and no others. -/
theorem bytes_of_keyword (keyword : leaf.node.text ∈ definitionKeywords) :
    ((utf8 text).take leaf.info.endByte).drop leaf.info.startByte = utf8 leaf.node.text.toList := by
  refine Text.eq_utf8_of_decodeMarking ?_ fun char member =>
    isAscii_of_isWordChar (isWordChar_of_keyword keyword char member)
  rw [text_eq_of_bytes overText inside rfl, String.toList_ofList]

/-- A leaf whose text is a keyword ends where the scan stops if that is at a word. -/
theorem endByte_of_keyword {char : Char} {rest : List Char}
    (before : beforeWord text offset = char :: rest) (letter : isWordChar char)
    (covers : leaf.node.coversByte (byteOffset text rest.length))
    (keyword : leaf.node.text ∈ definitionKeywords) :
    leaf.info.endByte = byteOffset text (rest.length + 1) := by
  have next : byteOffset text (rest.length + 1) = byteOffset text rest.length + 1 := by
    rw [Text.byteOffset_add_one (getElem?_of_beforeWord before),
      Text.utf8EncodeChar_of_ascii (isAscii_of_isWordChar letter).2]
    rfl
  have covers' : leaf.info.startByte ≤ byteOffset text rest.length ∧
      byteOffset text rest.length < leaf.info.endByte := by
    simpa [Node.coversByte, Place.info] using covers
  refine Nat.le_antisymm (Nat.le_of_not_lt fun further => ?_) (next ▸ covers'.2)
  -- Otherwise the keyword would go on with the first byte of a blank.
  have identifier : isIdentifierChar char := isIdentifierChar_of_isWordChar letter
  obtain ⟨blank, behind, isBlank⟩ := isBlank_behind before identifier
  obtain ⟨byte, ofBlank, there⟩ := Text.getElem?_utf8 behind
  have among : byte ∈ utf8 leaf.node.text.toList := by
    rw [← bytes_of_keyword overText inside keyword]
    refine List.mem_of_getElem? (i := byteOffset text (rest.length + 1) - leaf.info.startByte) ?_
    rw [List.getElem?_drop, Nat.add_sub_cancel' (by omega), List.getElem?_take, if_pos further]
    exact there
  obtain ⟨other, member, ofOther⟩ := List.mem_flatMap.mp among
  have letter' := isWordChar_of_keyword keyword other member
  have small := (isAscii_of_isWordChar letter').2
  have ascii : byte < 0x80 := by
    rw [Text.utf8EncodeChar_of_ascii small, List.mem_singleton] at ofOther
    rw [ofOther, UInt8.lt_iff_toNat_lt, UInt8.toNat_ofNat_of_lt' (Nat.lt_trans small (by decide))]
    exact small
  have same : blank = other := by
    rw [Text.eq_of_mem_utf8EncodeChar ofBlank ascii, Text.eq_of_mem_utf8EncodeChar ofOther ascii]
  rw [same, not_isBlank_of_isWordChar letter'] at isBlank
  cases isBlank

/-- A leaf over the character that the scan stops at covers exactly the scanned word if both are
keywords. -/
theorem spans_of_keywords (some_ : beforeWord text offset ≠ [])
    (covers : leaf.node.coversByte (byteOffset text ((beforeWord text offset).length - 1)))
    (keyword : String.ofList (scannedWord text offset) ∈ definitionKeywords)
    (keyword' : leaf.node.text ∈ definitionKeywords) : Spans leaf.node text offset := by
  obtain ⟨char, rest, before⟩ := List.exists_cons_of_ne_nil some_
  have letter : isWordChar char := by
    by_contra other
    have none_ : scannedWord text offset = [] := by
      rw [scannedWord, before, List.takeWhile_cons_of_neg other, List.reverse_nil]
    rw [none_] at keyword
    exact absurd keyword (by decide)
  rw [before, List.length_cons, Nat.add_sub_cancel] at covers
  have finish := endByte_of_keyword overText inside before letter covers keyword'
  have length : (beforeWord text offset).length = rest.length + 1 := by rw [before]; rfl
  have own := bytes_of_keyword overText inside keyword'
  -- Both words end the text before the blanks, so they are the same.
  have ends : utf8 leaf.node.text.toList <:+ utf8 (text.take (rest.length + 1)) := by
    rw [← own, finish, Text.take_utf8]
    exact List.drop_suffix _ _
  have ends' : utf8 (scannedWord text offset) <:+ utf8 (text.take (rest.length + 1)) := by
    rw [← length, take_scannedWord, Text.utf8_append]
    exact List.suffix_append _ _
  have same : leaf.node.text = String.ofList (scannedWord text offset) := by
    have word : utf8 (String.ofList (scannedWord text offset)).toList =
        utf8 (scannedWord text offset) := by rw [String.toList_ofList]
    rcases List.suffix_or_suffix_of_suffix ends ends' with shorter | shorter
    · exact keyword_of_suffix keyword' keyword (word.symm ▸ shorter)
    · exact (keyword_of_suffix keyword keyword' (word.symm ▸ shorter)).symm
  have sizes := congrArg List.length own
  rw [same, String.toList_ofList, List.length_drop, List.length_take,
    Nat.min_eq_left (overText.within leaf inside)] at sizes
  have ordered : leaf.info.startByte ≤ leaf.info.endByte := (inside.nested overText.nested).ordered
  have total := byteOffset_scannedWord text offset
  rw [length] at total
  refine ⟨?_, by rw [length]; exact finish⟩
  change leaf.info.startByte = _
  rw [length]
  omega

end Leaf

/-! ### The two views -/

/-- Holds of the leaves behind which a new name is typed: those of keywords, and those that pass for
the end of a declared type. -/
def opensName (leaf : Place) : Bool :=
  definitionKeywords.contains leaf.node.text || endsDeclaredType leaf

/-- A leaf opens a name if it is a keyword of definitions or ends a declared type. -/
theorem opensName_iff {leaf : Place} :
    opensName leaf ↔ leaf.node.text ∈ definitionKeywords ∨ endsDeclaredType leaf := by
  simp [opensName]

/-- Holds if a comment covers the character with the given number. -/
def InComment (tree : Node) (text : List Char) (index : Nat) : Prop :=
  ∃ comment : Place, comment.IsIn tree ∧ commentKinds.contains comment.kind ∧
    comment.node.coversByte (byteOffset text index)

/-- Holds of the trees in which comments are extra leaves, and in which all that is not blank lies
in comments or in other leaves. -/
structure IsLexed (tree : Node) (text : List Char) : Prop where
  comment : ∀ place : Place, place.IsIn tree → commentKinds.contains place.kind →
    place.isLeaf ∧ place.info.isExtra
  covered : ∀ index char, text[index]? = some char → isBlank char = false →
    InComment tree text index ∨
      ∃ leaf ∈ (Place.root tree).leaves, isPlain leaf ∧
        leaf.node.coversByte (byteOffset text index)

section Cursor

variable (tree : Node) (content : String) (line column : Nat)

/-- The place whose kind decides whether a cursor is in a comment. -/
def probe : Place :=
  tree.atPoint ⟨line, Text.byteColumn (lineAt content.toList line) (column - 1)⟩

/-- The character offset of a cursor. -/
def cursorOffset : Nat :=
  lineOffset (lines content.toList) line column

/-- The word that the scan takes for the one before a cursor, empty if there is none. -/
def wordAt : String :=
  String.ofList (scannedWord content.toList (cursorOffset content line column))

/-- The number of the character that the scan stops at. -/
def stopAt : Nat :=
  (beforeWord content.toList (cursorOffset content line column)).length - 1

/-- How a completion context may be mistaken about a cursor. -/
inductive Misread : Prop
  /-- At the start of a line and past its end a comment behind the cursor counts as around it. -/
  | commentBehind (outside : column = 0 ∨ (lineAt content.toList line).length < column)
      (inComment : (probe tree content line column).isInComment)
      (opens : (previousLeaf? tree content line column).any opensName)
  /-- A keyword at the end of a comment counts. -/
  | wordOfComment (free : ¬ (probe tree content line column).isInComment)
      (comment : InComment tree content.toList (stopAt content line column))
      (keyword : wordAt content line column ∈ definitionKeywords)
      (closed : ¬ (previousLeaf? tree content line column).any opensName)
  /-- A keyword with a comment behind it does not count. -/
  | commentBetween (free : ¬ (probe tree content line column).isInComment) {leaf : Place}
      (comment : InComment tree content.toList (stopAt content line column))
      (previous : previousLeaf? tree content line column = some leaf)
      (other : wordAt content line column ∉ definitionKeywords)
      (keyword : leaf.node.text ∈ definitionKeywords) (unended : ¬ endsDeclaredType leaf)
  /-- The scanned word is not the leaf, but the end of one or several of them. -/
  | otherSpan (free : ¬ (probe tree content line column).isInComment) {leaf : Place}
      (previous : previousLeaf? tree content line column = some leaf)
      (covers : leaf.node.coversByte (byteOffset content.toList (stopAt content line column)))
      (keyword : wordAt content line column ∈ definitionKeywords ∨
        leaf.node.text ∈ definitionKeywords)
      (unended : ¬ endsDeclaredType leaf)
      (apart : ¬ Spans leaf.node content.toList (cursorOffset content line column))

/-- The word before the typed one is the one that the scan takes, unless that is empty. -/
theorem wordBefore?_eq :
    wordBefore? content line column =
      if wordAt content line column = "" then none else some (wordAt content line column) := by
  rw [wordBefore?, wordAt, scannedWord, cursorOffset]
  refine if_congr ?_ rfl rfl
  rw [List.isEmpty_iff, ← String.toList_eq_nil_iff, String.toList_ofList, List.reverse_eq_nil_iff]

/-- A name of a definition is expected behind a keyword that the scan takes or behind a declared
type, but not in a comment. -/
theorem isDefinitionName_atPosition (grammar : Grammar) :
    (atPosition grammar tree content line column).isDefinitionName ↔
      ¬ (probe tree content line column).isInComment ∧
        (wordAt content line column ∈ definitionKeywords ∨
          (previousLeaf? tree content line column).any endsDeclaredType) := by
  have place : tree.atPoint ⟨line, Text.byteColumn (lineAt content.toList line) (column - 1)⟩ =
      probe tree content line column := rfl
  simp only [atPosition, wordBefore?_eq, place]
  by_cases inComment : (probe tree content line column).isInComment
  · simp [inComment, nothing]
  · by_cases empty : wordAt content line column = ""
    · have other : wordAt content line column ∉ definitionKeywords := by
        rw [empty]
        decide
      simp only [if_neg inComment, if_pos empty, Bool.false_or]
      split <;> simp_all
    · simp only [if_neg inComment, if_neg empty]
      split <;> simp_all

/-- Without text before the word there is no leaf. -/
theorem previousLeaf?_of_nil
    (none_ : beforeWord content.toList (cursorOffset content line column) = []) :
    previousLeaf? tree content line column = none := by
  rw [previousLeaf?]
  exact if_pos (List.isEmpty_iff.mpr none_)

end Cursor

section Views

variable {tree : Node} {content : String} {line column : Nat}

/-- The leaf before the cursor is the one at the stop of the scan, extras left out. -/
theorem previousLeaf?_eq_skipExtras
    (some_ : beforeWord content.toList (cursorOffset content line column) ≠ []) :
    previousLeaf? tree content line column =
      skipExtras (tree.size + 1)
        (tree.atByte (byteOffset content.toList (stopAt content line column))) := by
  rw [previousLeaf?]
  exact if_neg fun none_ => some_ (List.isEmpty_iff.mp none_)

/-- A leaf over the character that the scan stops at is found. -/
theorem previousLeaf?_of_covers (nested : tree.IsNested)
    (some_ : beforeWord content.toList (cursorOffset content line column) ≠ []) {leaf : Place}
    (among : leaf ∈ (Place.root tree).leaves) (plain : isPlain leaf)
    (covers : leaf.node.coversByte (byteOffset content.toList (stopAt content line column))) :
    previousLeaf? tree content line column = some leaf := by
  have isLeaf : leaf.isLeaf := List.of_mem_filter among
  rw [previousLeaf?_eq_skipExtras some_, skipExtras_atByte, nested.atByte_eq among covers,
    Place.lastLeaf_of_isLeaf isLeaf]
  exact if_neg (by simpa [isPlain] using plain)

/-- The leaf that is found lies in the tree. -/
theorem isIn_of_previousLeaf? {leaf : Place}
    (found : previousLeaf? tree content line column = some leaf) :
    beforeWord content.toList (cursorOffset content line column) ≠ [] ∧ leaf.IsIn tree := by
  have some_ : beforeWord content.toList (cursorOffset content line column) ≠ [] := by
    intro none_
    rw [previousLeaf?_of_nil _ _ _ _ none_] at found
    cases found
  have innermost := Node.isInnermost_atByte tree
    (byteOffset content.toList (stopAt content line column))
  rw [previousLeaf?_eq_skipExtras some_, skipExtras_atByte] at found
  refine ⟨some_, ?_⟩
  split at found
  · have among := (List.mem_filter.mp (List.mem_of_getLast? found)).1
    exact Place.isIn_of_mem_leaves (mem_leaves_of_before innermost among)
  · rw [← Option.some.inj found]
    exact innermost.inside.lastLeaf

/-- Inside a line a comment around the cursor covers the character before it. -/
theorem free_of_within (overText : tree.IsOver content.toList) (lexed : IsLexed tree content.toList)
    (uncommented : ∀ index, index + 1 = cursorOffset content line column →
      ¬ InComment tree content.toList index)
    (inside : 0 < column) (within : column ≤ (lineAt content.toList line).length)
    (opens : (previousLeaf? tree content line column).any opensName) :
    ¬ (probe tree content line column).isInComment := by
  obtain ⟨column, rfl⟩ := Nat.exists_eq_succ_of_ne_zero (Nat.ne_of_gt inside)
  have known : (lines content.toList)[line]? = some (lineAt content.toList line) := by
    unfold lineAt at within ⊢
    cases found : (lines content.toList)[line]? with
    | none => simp [found] at within
    | some text => simp [found]
  have before := Text.lineOffset_add_one known within
  have there : probe tree content line (column + 1) = tree.atByte
      (byteOffset content.toList (lineOffset (lines content.toList) line column)) := by
    rw [← overText.atPoint_eq (Text.byteOffset_le _ _), Text.take_utf8,
      Text.ofBytes_lineOffset content.toList (List.getElem?_eq_some_iff.mp known).1
        (Nat.le_of_succ_le within)]
    rfl
  rw [there]
  intro inComment
  obtain ⟨comment, member, isComment⟩ := List.any_eq_true.mp inComment
  have innermost := Node.isInnermost_atByte tree
    (byteOffset content.toList (lineOffset (lines content.toList) line column))
  obtain ⟨isLeaf, extra⟩ := lexed.comment comment (innermost.inside.of_mem_selfAndAbove member)
    isComment
  rw [← innermost.inside.eq_of_isLeaf_above member isLeaf] at innermost
  rcases innermost.isRoot_or_fits with rfl | covers
  · -- A tree that is nothing but a comment has no leaf before it.
    have nothing : previousLeaf? tree content line (column + 1) = none := by
      by_cases none_ : beforeWord content.toList (cursorOffset content line (column + 1)) = []
      · exact previousLeaf?_of_nil _ _ _ _ none_
      · rw [previousLeaf?_eq_skipExtras none_, skipExtras_atByte, Node.atByte_of_isLeaf isLeaf,
          if_pos extra]
        rfl
    rw [nothing] at opens
    cases opens
  · exact uncommented _ before.symm ⟨comment, innermost.inside, isComment, covers⟩

/-- Where a text is misread, the scan and the leaf before the cursor disagree. -/
theorem Misread.disagree (grammar : Grammar) (overText : tree.IsOver content.toList)
    (misread : Misread tree content line column) :
    ¬ ((atPosition grammar tree content line column).isDefinitionName ↔
      (previousLeaf? tree content line column).any opensName) := by
  rw [isDefinitionName_atPosition]
  intro agree
  cases misread with
  | commentBehind _ inComment opens => exact (agree.mpr opens).1 inComment
  | wordOfComment free _ keyword closed => exact closed (agree.mp ⟨free, .inl keyword⟩)
  | commentBetween free _ previous other keyword unended =>
      rw [previous] at agree
      rcases (agree.mpr (opensName_iff.mpr (.inl keyword))).2 with keyword' | ends
      · exact other keyword'
      · exact unended ends
  | @otherSpan free leaf previous covers keyword unended apart =>
      obtain ⟨some_, inside⟩ := isIn_of_previousLeaf? previous
      rw [previous, Option.any_some, Option.any_some, opensName_iff] at agree
      rcases keyword with keyword | keyword
      · have keyword' := (agree.mp ⟨free, .inl keyword⟩).resolve_right unended
        exact apart (spans_of_keywords overText inside some_ covers keyword keyword')
      · have keyword' := (agree.mpr (.inl keyword)).2.resolve_right unended
        exact apart (spans_of_keywords overText inside some_ covers keyword' keyword)

/-- Where the scan stops in a comment, only keywords make a difference. -/
theorem misread_of_comment (free : ¬ (probe tree content line column).isInComment)
    (comment : InComment tree content.toList (stopAt content line column))
    (disagree : ¬ ((wordAt content line column ∈ definitionKeywords ∨
        (previousLeaf? tree content line column).any endsDeclaredType) ↔
      (previousLeaf? tree content line column).any opensName)) :
    Misread tree content line column := by
  by_cases keyword : wordAt content line column ∈ definitionKeywords
  · exact .wordOfComment free comment keyword fun opens =>
      disagree (iff_of_true (.inl keyword) opens)
  · cases previous : previousLeaf? tree content line column with
    | none =>
        rw [previous] at disagree
        exact absurd (iff_of_false (fun own => own.elim keyword nofun) nofun) disagree
    | some leaf =>
        rw [previous, Option.any_some, Option.any_some, opensName_iff,
          or_iff_right keyword] at disagree
        have unended : ¬ endsDeclaredType leaf :=
          fun ends => disagree (iff_of_true ends (.inr ends))
        have keyword' : leaf.node.text ∈ definitionKeywords := by
          by_contra other
          exact disagree (iff_of_false unended fun own => own.elim other unended)
        exact .commentBetween free comment previous keyword keyword' unended

/-- Where the scan stops in a leaf, only the span of this leaf makes a difference. -/
theorem misread_of_leaf (overText : tree.IsOver content.toList)
    (some_ : beforeWord content.toList (cursorOffset content line column) ≠ [])
    (free : ¬ (probe tree content line column).isInComment) {leaf : Place}
    (among : leaf ∈ (Place.root tree).leaves) (plain : isPlain leaf)
    (covers : leaf.node.coversByte (byteOffset content.toList (stopAt content line column)))
    (disagree : ¬ ((wordAt content line column ∈ definitionKeywords ∨
        (previousLeaf? tree content line column).any endsDeclaredType) ↔
      (previousLeaf? tree content line column).any opensName)) :
    Misread tree content line column := by
  have previous := previousLeaf?_of_covers overText.nested some_ among plain covers
  have inside := Place.isIn_of_mem_leaves among
  rw [previous, Option.any_some, Option.any_some, opensName_iff] at disagree
  refine .otherSpan free previous covers ?_ ?_ ?_
  · by_contra none_
    rw [not_or] at none_
    exact disagree (or_congr_left (iff_of_false none_.1 none_.2))
  · exact fun ends => disagree (iff_of_true (.inr ends) (.inr ends))
  · intro spans
    rw [text_of_spans overText inside spans] at disagree
    exact disagree Iff.rfl

/-- Where the scan and the leaf before the cursor disagree outside comments, the text is misread. -/
theorem misread_of_disagree (grammar : Grammar) (overText : tree.IsOver content.toList)
    (lexed : IsLexed tree content.toList)
    (uncommented : ∀ index, index + 1 = cursorOffset content line column →
      ¬ InComment tree content.toList index)
    (disagree : ¬ ((atPosition grammar tree content line column).isDefinitionName ↔
      (previousLeaf? tree content line column).any opensName)) :
    Misread tree content line column := by
  rw [isDefinitionName_atPosition] at disagree
  by_cases free : (probe tree content line column).isInComment
  · have opens : (previousLeaf? tree content line column).any opensName := by
      by_contra closed
      exact disagree (iff_of_false (fun own => own.1 free) closed)
    refine .commentBehind ?_ free opens
    by_contra inside
    rw [not_or, Nat.not_lt] at inside
    exact free_of_within overText lexed uncommented (Nat.pos_of_ne_zero inside.1) inside.2 opens
      free
  · rw [and_iff_right free] at disagree
    cases before : beforeWord content.toList (cursorOffset content line column) with
    | nil =>
        have other : wordAt content line column ∉ definitionKeywords := by
          rw [wordAt, scannedWord, before]
          decide
        rw [previousLeaf?_of_nil _ _ _ _ before] at disagree
        exact absurd (iff_of_false (fun own => own.elim other nofun) nofun) disagree
    | cons char rest =>
        have stop : stopAt content line column = rest.length := by
          rw [stopAt, before]
          rfl
        have covered := lexed.covered rest.length char (getElem?_of_beforeWord before)
          (isBlank_of_beforeWord before)
        rw [← stop] at covered
        rcases covered with comment | ⟨leaf, among, plain, covers⟩
        · exact misread_of_comment free comment disagree
        · exact misread_of_leaf overText (by simp [before]) free among plain covers disagree

/-- **The completion context and the leaf before the cursor agree about new names unless a comment
or the span of a leaf misleads the context.** -/
theorem isDefinitionName_iff_opensName (grammar : Grammar) (overText : tree.IsOver content.toList)
    (lexed : IsLexed tree content.toList)
    (uncommented : ∀ index, index + 1 = cursorOffset content line column →
      ¬ InComment tree content.toList index) :
    ((atPosition grammar tree content line column).isDefinitionName ↔
        (previousLeaf? tree content line column).any opensName) ↔
      ¬ Misread tree content line column :=
  ⟨fun agree misread => misread.disagree grammar overText agree, fun read =>
    Classical.not_not.mp fun disagree =>
      read (misread_of_disagree grammar overText lexed uncommented disagree)⟩

end Views

section Comment

private def remark : String := "x //class\n"

/-- A node that covers some bytes of the remark. -/
private def remarkNode (kind : String) (extra : Bool) (start stop : Nat) (children : List Node) :
    Node :=
  .node ⟨kind, none, start, stop, Text.Point.ofBytes ((utf8 remark.toList).take start),
    Text.Point.ofBytes ((utf8 remark.toList).take stop),
    some (((utf8 remark.toList).take stop).drop start), false, extra, 0, 0⟩ children

private def remarkName : Node := remarkNode "identifier" false 0 1 []

private def remarkComment : Node := remarkNode "line_comment" true 2 9 []

private def remarkTree : Node := remarkNode "source_file" false 0 10 [remarkName, remarkComment]

private def remarkGrammar : Grammar where
  parse := fun _ => remarkTree
  nextSymbols := fun _ => []
  definitions := []
  references := []
  completions := []

private theorem node_of_isIn_remarkTree {place : Place} (inside : place.IsIn remarkTree) :
    place.node = remarkTree ∨ place.node = remarkName ∨ place.node = remarkComment := by
  induction inside with
  | root => exact .inl rfl
  | child _ found ih =>
      rw [Place.childAt]
      have among := List.mem_of_getElem? found
      rcases ih with same | same | same <;> rw [same] at among
      · exact .inr (by simpa [remarkTree, remarkNode, Node.children] using among)
      · cases among
      · cases among

private theorem isOver_remarkTree : remarkTree.IsOver remark.toList := by
  decide +kernel

private def atName : Place := ⟨remarkName, [⟨remarkTree, 0⟩]⟩

private def atComment : Place := ⟨remarkComment, [⟨remarkTree, 1⟩]⟩

private theorem isIn_atComment : atComment.IsIn remarkTree :=
  have found : (Place.root remarkTree).node.children[1]? = some remarkComment := rfl
  .child .root found

private theorem node_of_isComment {place : Place} (inside : place.IsIn remarkTree)
    (isComment : commentKinds.contains place.kind) : place.node = remarkComment := by
  rcases node_of_isIn_remarkTree inside with same | same | same
  · rw [Place.kind, same] at isComment
    exact absurd isComment (by decide)
  · rw [Place.kind, same] at isComment
    exact absurd isComment (by decide)
  · exact same

private theorem isLexed_remarkTree : IsLexed remarkTree remark.toList where
  comment place inside isComment := by
    rw [Place.isLeaf, Place.info, node_of_isComment inside isComment]
    decide
  covered index char found visible := by
    have short : index < 10 := (List.getElem?_eq_some_iff.mp found).1
    have all : ∀ index < 10, (remark.toList[index]?).all isBlank ∨
        atComment.node.coversByte (byteOffset remark.toList index) ∨
          atName.node.coversByte (byteOffset remark.toList index) := by
      decide +kernel
    rcases all index short with blank | covers | covers
    · rw [found, Option.all_some, visible] at blank
      cases blank
    · exact .inl ⟨atComment, isIn_atComment, by decide, covers⟩
    · exact .inr ⟨atName, List.mem_cons_self, by decide, covers⟩

/-- A keyword at the end of a comment is taken for the word before the cursor. -/
theorem isDefinitionName_remark :
    remarkTree.IsOver remark.toList ∧ IsLexed remarkTree remark.toList ∧
      (atPosition remarkGrammar remarkTree remark 1 0).isDefinitionName ∧
      ¬ (previousLeaf? remarkTree remark 1 0).any opensName := by
  have uncommented : ∀ index, index + 1 = cursorOffset remark 1 0 →
      ¬ InComment remarkTree remark.toList index := by
    rintro index before ⟨comment, inside, isComment, covers⟩
    obtain rfl : index = 9 := Nat.succ.inj before
    rw [node_of_isComment inside isComment] at covers
    exact absurd covers (by decide)
  have closed : ¬ (previousLeaf? remarkTree remark 1 0).any opensName := by
    decide +kernel
  have misread : Misread remarkTree remark 1 0 :=
    .wordOfComment (by decide) ⟨atComment, isIn_atComment, by decide, by decide⟩ (by decide) closed
  refine ⟨isOver_remarkTree, isLexed_remarkTree, Classical.not_not.mp fun other => ?_, closed⟩
  exact (isDefinitionName_iff_opensName remarkGrammar isOver_remarkTree isLexed_remarkTree
    uncommented).mp (iff_of_false other closed) misread

end Comment

end ModelAssist.CompletionContext
