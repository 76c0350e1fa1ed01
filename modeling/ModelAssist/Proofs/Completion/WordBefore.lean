import ModelAssist.Proofs.Completion.NewName
import ModelAssist.Proofs.Completion.TypedText

/-!
# The word before the one at a cursor

The word before a cursor is scanned for among letters and underscores, but identifiers have digits
as well.  So the word that is found is the longest run of letters at the end of the text before the
cursor (`wordBefore?_eq_some_iff`), and this is a whole word unless a digit stands in front of it
(`tellsWholeWord_iff`).
-/

namespace ModelAssist.CompletionContext

open TypedText (IsRun)
open ModelAssist.Text (isBlank)

/-- Holds if a word stands at the end of a text and no longer identifier ends there. -/
structure IsWholeWord (text word : List Char) : Prop where
  nonempty : word ≠ []
  ends : ∃ front, text = front ++ word ∧ ∀ char ∈ front.getLast?, isIdentifierChar char = false

/-- Holds if an answer is a whole word at the end of a text, and if it is the identifier there where
this starts and ends with letters. -/
structure TellsWholeWord (text : List Char) (answer : Option String) : Prop where
  whole : ∀ word, answer = some word → IsWholeWord text word.toList
  found : ∀ word, IsRun isIdentifierChar text word → word.head?.any isWordChar →
    word.getLast?.any isWordChar → answer = some (String.ofList word)

/-- Holds of the texts that end with letters behind a digit. -/
def EndsBehindDigit (text : List Char) : Prop :=
  ∃ front digit letters, text = front ++ digit :: letters ∧ digit.isDigit ∧ letters ≠ [] ∧
    ∀ char ∈ letters, isWordChar char

/-- The scan takes no digits. -/
theorem not_isWordChar_of_isDigit {char : Char} (digit : char.isDigit) :
    isWordChar char = false := by
  have all : ∀ code < 128, (Char.ofNat code).isDigit → isWordChar (Char.ofNat code) = false := by
    decide +kernel
  have small : char.toNat < 128 :=
    Text.lt_of_isAlphanum (by rw [Char.isAlphanum, digit, Bool.or_true])
  have own := all char.toNat small
  rw [Char.ofNat_toNat] at own
  exact own digit

/-- Of the characters of identifiers the scan leaves out the digits only. -/
theorem isDigit_of_not_isWordChar {char : Char} (identifier : isIdentifierChar char)
    (other : isWordChar char = false) : char.isDigit := by
  simp only [isIdentifierChar, isWordChar, Char.isAlphanum, Bool.or_eq_true, Bool.or_eq_false_iff]
    at identifier other
  rcases identifier with (letter | digit) | underscore
  · rw [other.1] at letter
    cases letter
  · exact digit
  · rw [other.2] at underscore
    cases underscore

/-- The text before an offset is what the scan stops at, then a run of blanks, then the partial
word. -/
theorem isRun_beforeWord (text : List Char) (offset : Nat) :
    ∃ blanks typed, text.take offset = (beforeWord text offset).reverse ++ blanks ++ typed ∧
      IsRun isIdentifierChar (text.take offset) typed ∧
      IsRun isBlank ((beforeWord text offset).reverse ++ blanks) blanks := by
  let rest := (text.take offset).reverse.dropWhile isIdentifierChar
  have behind : (beforeWord text offset).reverse ++ (rest.takeWhile isBlank).reverse =
      rest.reverse := by
    rw [← List.reverse_append]
    exact congrArg List.reverse List.takeWhile_append_dropWhile
  have blankRun := TypedText.isRun_takeWhile_reverse isBlank rest.reverse
  rw [List.reverse_reverse, ← behind] at blankRun
  refine ⟨_, _, ?_, TypedText.isRun_takeWhile_reverse isIdentifierChar _, blankRun⟩
  rw [behind, ← List.reverse_append, List.takeWhile_append_dropWhile, List.reverse_reverse]

/-- The word that is found is the longest run of letters at the end of the text before the
blanks. -/
theorem wordBefore?_eq_some_iff {content word : String} {line column : Nat} :
    wordBefore? content line column = some word ↔
      word ≠ "" ∧ IsRun isWordChar
        (beforeWord content.toList (cursorOffset content line column)).reverse word.toList := by
  have run := TypedText.isRun_takeWhile_reverse isWordChar
    (beforeWord content.toList (cursorOffset content line column)).reverse
  rw [List.reverse_reverse] at run
  have scanned : (wordAt content line column).toList =
      ((beforeWord content.toList (cursorOffset content line column)).takeWhile
        isWordChar).reverse := by
    rw [wordAt, scannedWord, String.toList_ofList]
  rw [wordBefore?_eq, Option.ite_none_left_eq_some, Option.some.injEq]
  constructor
  · rintro ⟨some_, rfl⟩
    rw [scanned]
    exact ⟨some_, run⟩
  · rintro ⟨some_, isRun⟩
    have same : wordAt content line column = word := by
      have longest := isRun.takeWhile_reverse_eq
      rw [List.reverse_reverse] at longest
      rw [← String.toList_inj, scanned, longest, List.reverse_reverse]
    rw [same]
    exact ⟨some_, rfl⟩

section Answer

variable {text : List Char} {answer : Option String}

/-- Letters behind a digit are a longest run of letters but no whole word. -/
theorem EndsBehindDigit.exists_isRun (behind : EndsBehindDigit text) :
    ∃ letters, letters ≠ [] ∧ IsRun isWordChar text letters ∧ ¬ IsWholeWord text letters := by
  obtain ⟨front, digit, letters, rfl, isDigit, some_, all⟩ := behind
  have whole : front ++ digit :: letters = (front ++ [digit]) ++ letters := by simp
  refine ⟨letters, some_, ⟨all, front ++ [digit], whole, ?_⟩, ?_⟩
  · intro char last
    rw [List.getLast?_concat] at last
    obtain rfl := Option.some.inj last
    exact not_isWordChar_of_isDigit isDigit
  · rintro ⟨-, front', ends, stops⟩
    rw [whole] at ends
    obtain rfl := List.append_cancel_right ends
    have identifier := stops digit (by simp)
    rw [isIdentifierChar, Char.isAlphanum, isDigit, Bool.or_true, Bool.true_or] at identifier
    cases identifier

/-- In front of a longest run of letters no identifier goes on unless by a digit. -/
theorem not_isIdentifierChar_of_isRun (unbroken : ¬ EndsBehindDigit text)
    {front letters : List Char} (split : text = front ++ letters) (some_ : letters ≠ [])
    (all : ∀ char ∈ letters, isWordChar char)
    {char : Char} (last : front.getLast? = some char) (other : isWordChar char = false) :
    isIdentifierChar char = false := by
  by_contra identifier
  rw [Bool.not_eq_false] at identifier
  refine unbroken ⟨front.dropLast, char, letters, ?_, isDigit_of_not_isWordChar identifier other,
    some_, all⟩
  rw [split, List.append_cons, List.dropLast_append_getLast? char last]

/-- The identifier at the end of the text has letters only if its last character is one. -/
theorem isWordChar_of_mem_identifier (unbroken : ¬ EndsBehindDigit text) {word : List Char}
    (identifier : IsRun isIdentifierChar text word) (last : word.getLast?.any isWordChar) :
    ∀ char ∈ word, isWordChar char := by
  obtain ⟨before, split, -⟩ := identifier.longest
  have run := TypedText.isRun_takeWhile_reverse isWordChar word
  generalize (word.reverse.takeWhile isWordChar).reverse = letters at run
  obtain ⟨front, rfl, stops⟩ := run.longest
  have some_ : letters ≠ [] := by
    rintro rfl
    rw [List.append_nil] at last
    cases found : front.getLast? with
    | none =>
        rw [found] at last
        cases last
    | some char =>
        rw [found, Option.any_some, stops char found] at last
        cases last
  cases found : front.getLast? with
  | none =>
      rw [List.getLast?_eq_none_iff] at found
      rw [found, List.nil_append]
      exact run.within
  | some char =>
      have whole : text = (before ++ front) ++ letters := by rw [split, List.append_assoc]
      have other := not_isIdentifierChar_of_isRun unbroken whole some_ run.within
        (by rw [List.getLast?_append, found]; rfl) (stops char found)
      have member : char ∈ front ++ letters :=
        List.mem_append_left _ (List.mem_of_getLast? found)
      rw [identifier.within char member] at other
      cases other

/-- An answer that is the longest run of letters at the end of a text tells a whole word exactly if
no digit stands in front of these letters. -/
theorem tellsWholeWord_iff
    (known : ∀ word, answer = some word ↔ word ≠ "" ∧ IsRun isWordChar text word.toList) :
    TellsWholeWord text answer ↔ ¬ EndsBehindDigit text := by
  constructor
  · intro tells behind
    obtain ⟨letters, some_, isRun, broken⟩ := behind.exists_isRun
    have told : answer = some (String.ofList letters) :=
      (known _).mpr ⟨by simpa using some_, by rwa [String.toList_ofList]⟩
    have whole := tells.whole _ told
    rw [String.toList_ofList] at whole
    exact broken whole
  · intro unbroken
    refine ⟨?_, ?_⟩
    · intro word told
      obtain ⟨some_, isRun⟩ := (known word).mp told
      obtain ⟨front, split, stops⟩ := isRun.longest
      have nonempty : word.toList ≠ [] := by simpa using some_
      refine ⟨nonempty, front, split, fun char last => ?_⟩
      exact not_isIdentifierChar_of_isRun unbroken split nonempty isRun.within last
        (stops char last)
    · intro word identifier _ last
      have letters := isWordChar_of_mem_identifier unbroken identifier last
      obtain ⟨front, split, stops⟩ := identifier.longest
      refine (known _).mpr ⟨?_, ?_⟩
      · rintro empty
        obtain rfl : word = [] := by simpa using empty
        cases last
      · rw [String.toList_ofList]
        refine ⟨letters, front, split, fun char found => ?_⟩
        by_contra letter
        have goesOn := isIdentifierChar_of_isWordChar (Bool.not_eq_false _ ▸ letter)
        rw [stops char found] at goesOn
        cases goesOn

end Answer

/-! ### The word that is found -/

/-- **The word before a cursor is the longest run of letters that ends at the last character before
the partial word and the blanks, and it is a whole word unless a digit stands in front of it.** -/
theorem wordBefore?_tellsWholeWord_iff (content : String) (line column : Nat) :
    ∃ before blanks typed,
      content.toList.take (cursorOffset content line column) = before ++ blanks ++ typed ∧
      IsRun isIdentifierChar (content.toList.take (cursorOffset content line column)) typed ∧
      IsRun isBlank (before ++ blanks) blanks ∧
      (∀ word, wordBefore? content line column = some word ↔
        word ≠ "" ∧ IsRun isWordChar before word.toList) ∧
      (TellsWholeWord before (wordBefore? content line column) ↔ ¬ EndsBehindDigit before) := by
  obtain ⟨blanks, typed, split, typedRun, blankRun⟩ :=
    isRun_beforeWord content.toList (cursorOffset content line column)
  exact ⟨_, blanks, typed, split, typedRun, blankRun, fun _ => wordBefore?_eq_some_iff,
    tellsWholeWord_iff fun _ => wordBefore?_eq_some_iff⟩

example : wordBefore? "a1b " 0 4 = some "b" := by decide +kernel

end ModelAssist.CompletionContext
