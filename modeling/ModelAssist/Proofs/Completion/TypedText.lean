import Mathlib.Data.List.TakeWhile
import ModelAssist.Completion.Item
import ModelAssist.Proofs.Text.Ascii
import ModelAssist.Proofs.Text.Lowercase

/-!
# What was typed before a cursor

A partial word or path is what is left of the run of its characters before the cursor when its lead
is taken away: whatever stands in it before the first character that may start a word
(`TypedText.IsRun.lastRun_eq`).
-/

namespace ModelAssist

namespace TypedText

/-- Holds of the longest ending of a text that consists of characters of a class. -/
structure IsRun (isMember : Char → Bool) (text run : List Char) : Prop where
  within : ∀ char ∈ run, isMember char
  longest : ∃ before, text = before ++ run ∧ ∀ char ∈ before.getLast?, isMember char = false

/-- What stands in a run before the first character that may start a word. -/
def lead (run : List Char) : List Char :=
  run.takeWhile (!startsWord ·)

/-- What stands in a run from the first character on that may start a word. -/
def body (run : List Char) : List Char :=
  run.dropWhile (!startsWord ·)

/-- A run is its lead and its body. -/
theorem lead_append_body (run : List Char) : lead run ++ body run = run :=
  List.takeWhile_append_dropWhile

/-- No character of the lead of a run starts a word. -/
theorem not_startsWord_of_mem_lead {run : List Char} {char : Char} (member : char ∈ lead run) :
    startsWord char = false := by
  simpa using List.mem_takeWhile_imp member

/-- The body of a run begins with a character that starts a word. -/
theorem startsWord_of_body {run rest : List Char} {char : Char} (starts : body run = char :: rest) :
    startsWord char := by
  have head := List.head?_dropWhile_not (!startsWord ·) run
  rw [← body, starts] at head
  simpa using head

/-- The longest run of members at the front of the reversed text is the one at its end. -/
theorem isRun_takeWhile_reverse (isMember : Char → Bool) (text : List Char) :
    IsRun isMember text (text.reverse.takeWhile isMember).reverse where
  within := fun _ member => List.mem_takeWhile_imp (List.mem_reverse.mp member)
  longest := by
    refine ⟨(text.reverse.dropWhile isMember).reverse, ?_, ?_⟩
    · rw [← List.reverse_append, List.takeWhile_append_dropWhile, List.reverse_reverse]
    · intro char last
      rw [List.getLast?_reverse] at last
      have stops := List.head?_dropWhile_not isMember text.reverse
      rw [Option.mem_def.mp last] at stops
      exact stops

/-- The run at the end of a text is found by reading the text backwards. -/
theorem IsRun.takeWhile_reverse_eq {isMember : Char → Bool} {text run : List Char}
    (isRun : IsRun isMember text run) : text.reverse.takeWhile isMember = run.reverse := by
  obtain ⟨before, rfl, longest⟩ := isRun.longest
  have stops : before.reverse.takeWhile isMember = [] := by
    rw [List.getLast?_eq_head?_reverse] at longest
    cases reversed : before.reverse with
    | nil => rfl
    | cons last above =>
        have other := longest last (by simp [reversed])
        exact List.takeWhile_cons_of_neg (by simp [other])
  rw [List.reverse_append, List.takeWhile_append_of_pos (by simpa using isRun.within), stops,
    List.append_nil]

/-- The last run of a text, without its lead, is the body of the run at its end. -/
theorem IsRun.lastRun_eq {isMember : Char → Bool} {text run : List Char}
    (isRun : IsRun isMember text run) : lastRun isMember text = body run := by
  rw [lastRun, isRun.takeWhile_reverse_eq, List.reverse_reverse, body]

/-- A `use` path consists of ASCII characters. -/
theorem isAscii_of_isOfUsePath {char : Char} (member : isOfUsePath char) : char.toNat < 128 := by
  simp only [isOfUsePath, isOfWord, Bool.or_eq_true, decide_eq_true_eq] at member
  rcases member with ((letter | rfl) | rfl) | rfl
  · exact Text.lt_of_isAlphanum letter
  · decide
  · decide
  · decide

/-- The case of a letter is no matter of whether it starts a word. -/
theorem startsWord_toLower {char : Char} (ascii : char.toNat < 128) :
    startsWord char.toLower = startsWord char := by
  have all : ∀ code < 128,
      startsWord (Char.ofNat code).toLower = startsWord (Char.ofNat code) := by decide +kernel
  have own := all char.toNat ascii
  rwa [Char.ofNat_toNat] at own

end TypedText

namespace CompletionItem

open TypedText

/-- A name that starts with a run matches what was typed in it unless the run has both a lead and
something after it. -/
theorem matchesTyped_body_iff {run : List Char} {name : String}
    (within : ∀ char ∈ run, isOfUsePath char) (starts : run <+: name.toList) :
    matchesTyped (String.ofList (body run)) name ↔ lead run = [] ∨ body run = [] := by
  have ascii : ∀ char ∈ run, char.toNat < 128 :=
    fun char member => isAscii_of_isOfUsePath (within char member)
  obtain ⟨rest, whole⟩ := starts
  have parts := lead_append_body run
  cases typed : body run with
  | nil => simp [matchesTyped]
  | cons first typed_ =>
      have nonempty : String.ofList (first :: typed_) ≠ "" := by simp
      have asciiTyped : ∀ char ∈ first :: typed_, char.toNat < 128 := by
        intro char member
        exact ascii char (parts ▸ typed ▸ List.mem_append_right _ member)
      simp only [matchesTyped, nonempty, decide_false, Bool.false_or, String.toList_ofList,
        List.isPrefixOf_iff_prefix, ← whole, Text.lower_append_of_ascii rest ascii,
        Text.lower_of_ascii asciiTyped, or_false, reduceCtorEq]
      cases leads : lead run with
      | nil =>
          have same : run = first :: typed_ := by rw [← parts, leads, typed, List.nil_append]
          simp [same]
      | cons head lead_ =>
          simp only [reduceCtorEq, iff_false]
          rw [← parts, leads, typed]
          -- The lower-case forms differ in their first letters, only one of which starts a word.
          intro fits
          have same : first.toLower = head.toLower := (List.cons_prefix_cons.mp fits).1
          have headStarts := not_startsWord_of_mem_lead (leads ▸ List.mem_cons_self)
          have firstStarts := startsWord_of_body typed
          have asciiHead : head.toNat < 128 :=
            ascii head (parts ▸ leads ▸ List.mem_append_left _ List.mem_cons_self)
          rw [← startsWord_toLower asciiHead, ← same,
            startsWord_toLower (asciiTyped first List.mem_cons_self), firstStarts] at headStarts
          cases headStarts

end CompletionItem

end ModelAssist
