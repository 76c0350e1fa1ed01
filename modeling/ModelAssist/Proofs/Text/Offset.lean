import ModelAssist.Completion.Context
import ModelAssist.Proofs.Text.Position

/-!
# Offsets and positions

The offset of a line and a column counts the lines before, each with its line feed, and the start of
the line (`Text.take_lineOffset`).  Counting back from an offset to the line feeds before it
therefore gives the position again, and every offset in a text is that of a position
(`Text.exists_lineOffset_eq`).  A column past the end of a line stays in that line, and a line past
the last one stands for the end of the text (`Text.positions_correspond`).
-/

namespace ModelAssist.Text

open CompletionContext (beforeWord)

/-- The number of line feeds before an offset. -/
def feedsBefore (text : List Char) (offset : Nat) : Nat :=
  (text.take offset).count '\n'

/-- The number of characters between the last line feed before an offset and the offset. -/
def sinceFeed (text : List Char) (offset : Nat) : Nat :=
  ((text.take offset).reverse.takeWhile (· ≠ '\n')).length

/-- Some lines, each with a line feed behind it. -/
def ended (lines : List (List Char)) : List Char :=
  lines.flatMap (· ++ ['\n'])

variable {text : List Char}

/-- A first line is ended before the rest. -/
theorem ended_cons (line : List Char) (rest : List (List Char)) :
    ended (line :: rest) = line ++ '\n' :: ended rest := by
  simp [ended]

/-- Lines are ended one list after the other. -/
theorem ended_append (first second : List (List Char)) :
    ended (first ++ second) = ended first ++ ended second :=
  List.flatMap_append

/-- The lines of a text, with their line feeds, are the text with one more line feed. -/
theorem ended_lines (text : List Char) : ended (lines text) = text ++ ['\n'] := by
  induction text with
  | nil => rfl
  | cons char rest ih =>
      rw [lines]
      split
      · next feed => rw [ended_cons, ih, feed]; rfl
      · obtain ⟨first, others, split⟩ := List.exists_cons_of_ne_nil (lines_ne_nil rest)
        rw [split, ended_cons] at ih
        rw [split]
        simp only [ended_cons, List.cons_append, ih]

/-- No line holds a line feed. -/
theorem not_mem_of_mem_lines {line : List Char} (member : line ∈ lines text) : '\n' ∉ line := by
  induction text generalizing line with
  | nil =>
      rw [List.mem_singleton.mp member]
      exact List.not_mem_nil
  | cons char rest ih =>
      rw [lines] at member
      split at member
      · rcases List.mem_cons.mp member with rfl | later
        · exact List.not_mem_nil
        · exact ih later
      · next other =>
          obtain ⟨first, others, split⟩ := List.exists_cons_of_ne_nil (lines_ne_nil rest)
          rw [split] at member ih
          rcases List.mem_cons.mp member with rfl | later
          · rw [List.mem_cons, not_or]
            exact ⟨Ne.symm other, ih List.mem_cons_self⟩
          · exact ih (List.mem_cons_of_mem _ later)

/-- Ended lines hold one line feed each. -/
theorem count_ended {lines : List (List Char)} (single : ∀ line ∈ lines, '\n' ∉ line) :
    (ended lines).count '\n' = lines.length := by
  induction lines with
  | nil => rfl
  | cons line rest ih =>
      obtain ⟨here, later⟩ := List.forall_mem_cons.mp single
      rw [ended_cons, List.count_append, List.count_eq_zero.mpr here, List.count_cons_self,
        ih later, Nat.zero_add, List.length_cons]

/-- Back from the end of a word behind some lines the first line feed is the one before the word. -/
theorem takeWhile_reverse_ended (lines : List (List Char)) {word : List Char}
    (single : '\n' ∉ word) :
    (ended lines ++ word).reverse.takeWhile (· ≠ '\n') = word.reverse := by
  have own : ∀ char ∈ word.reverse, decide (char ≠ '\n') = true := by
    intro char member
    refine decide_eq_true fun same => single ?_
    rw [← same]
    exact List.mem_reverse.mp member
  rw [List.reverse_append, List.takeWhile_append_of_pos own]
  rcases List.eq_nil_or_concat lines with rfl | ⟨earlier, last, rfl⟩
  · exact List.append_nil _
  · simp [ended]

/-- The offset of a position counts the lines before it with their ends, and the columns. -/
theorem lineOffset_eq (text : List Char) (line column : Nat) :
    lineOffset (lines text) line column =
      (ended ((lines text).take line) ++ (lineAt text line).take column).length := by
  have before (some_ : List (List Char)) :
      (some_.map (·.length + 1)).foldr (· + ·) 0 = (ended some_).length := by
    induction some_ with
    | nil => rfl
    | cons first rest ih =>
        rw [List.map_cons, List.foldr_cons, ih, ended_cons, List.length_append, List.length_cons]
        omega
  rw [lineOffset, before, List.length_append, List.length_take, lineAt, List.getD_eq_getElem?_getD]
  cases (lines text)[line]? <;> simp

/-- Past the last line of a text lies the end of the text with one more line feed. -/
theorem lineOffset_of_length_le {line : Nat} (beyond : (lines text).length ≤ line) (column : Nat) :
    lineOffset (lines text) line column = text.length + 1 := by
  have nothing : lineAt text line = [] := by
    rw [lineAt, List.getD_eq_getElem?_getD, List.getElem?_eq_none beyond, Option.getD_none]
  rw [lineOffset_eq, List.take_of_length_le beyond, ended_lines, nothing, List.take_nil,
    List.append_nil, List.length_append, List.length_singleton]

/-- Every offset in some lines, with their line feeds, is that of a position. -/
theorem exists_lineOffset_eq {lines : List (List Char)} {offset : Nat}
    (within : offset < (ended lines).length) :
    ∃ line < lines.length, ∃ column ≤ (lines.getD line []).length,
      lineOffset lines line column = offset := by
  induction lines generalizing offset with
  | nil => exact absurd within (Nat.not_lt_zero _)
  | cons first rest ih =>
      by_cases here : offset ≤ first.length
      · refine ⟨0, Nat.succ_pos _, offset, here, ?_⟩
        rw [lineOffset_zero, Nat.min_eq_left here]
      · rw [ended_cons, List.length_append, List.length_cons] at within
        obtain ⟨line, known, column, inside, same⟩ :=
          @ih (offset - (first.length + 1)) (by omega)
        refine ⟨line + 1, Nat.succ_lt_succ known, column, inside, ?_⟩
        rw [lineOffset_succ, same]
        omega

section Position

variable {line : Nat} (known : line < (lines text).length)
include known

theorem lineAt_eq : lineAt text line = (lines text)[line] := by
  rw [lineAt, List.getD_eq_getElem?_getD, List.getElem?_eq_getElem known, Option.getD_some]

theorem not_mem_lineAt : '\n' ∉ lineAt text line := by
  rw [lineAt_eq known]
  exact not_mem_of_mem_lines (List.getElem_mem known)

/-- A position divides a text with one more line feed. -/
theorem append_feed_eq (column : Nat) :
    text ++ ['\n'] =
      (ended ((lines text).take line) ++ (lineAt text line).take column) ++
        ((lineAt text line).drop column ++ '\n' :: ended ((lines text).drop (line + 1))) := by
  calc text ++ ['\n']
      = ended ((lines text).take line ++ lineAt text line :: (lines text).drop (line + 1)) := by
        rw [lineAt_eq known, List.getElem_cons_drop, List.take_append_drop, ended_lines]
    _ = ended ((lines text).take line) ++
          (((lineAt text line).take column ++ (lineAt text line).drop column) ++
            '\n' :: ended ((lines text).drop (line + 1))) := by
        rw [ended_append, ended_cons, List.take_append_drop]
    _ = _ := by simp only [List.append_assoc]

/-- No position in a line of a text lies behind the text. -/
theorem lineOffset_le (column : Nat) : lineOffset (lines text) line column ≤ text.length := by
  have lengths := congrArg List.length (append_feed_eq known column)
  rw [@List.length_append _ (_ ++ _) (_ ++ _), ← lineOffset_eq] at lengths
  simp only [List.length_append, List.length_cons, List.length_nil] at lengths
  omega

/-- **Before a position stand the lines before with their line feeds and the start of the line.** -/
theorem take_lineOffset (column : Nat) :
    text.take (lineOffset (lines text) line column) =
      ended ((lines text).take line) ++ (lineAt text line).take column := by
  rw [← List.take_append_of_le_length (lineOffset_le known column), append_feed_eq known column,
    lineOffset_eq]
  exact List.take_left

/-- As many line feeds stand before a position as it has lines above. -/
theorem feedsBefore_lineOffset (column : Nat) :
    feedsBefore text (lineOffset (lines text) line column) = line := by
  have single : '\n' ∉ (lineAt text line).take column :=
    fun member => not_mem_lineAt known (List.mem_of_mem_take member)
  rw [feedsBefore, take_lineOffset known, List.count_append, List.count_eq_zero.mpr single,
    count_ended fun line member => not_mem_of_mem_lines (List.mem_of_mem_take member),
    List.length_take, Nat.min_eq_left (Nat.le_of_lt known), Nat.add_zero]

/-- A position counts its columns from the last line feed, as far as its line goes. -/
theorem sinceFeed_lineOffset (column : Nat) :
    sinceFeed text (lineOffset (lines text) line column) =
      min column (lineAt text line).length := by
  have single : '\n' ∉ (lineAt text line).take column :=
    fun member => not_mem_lineAt known (List.mem_of_mem_take member)
  rw [sinceFeed, take_lineOffset known, takeWhile_reverse_ended _ single, List.length_reverse,
    List.length_take]

end Position

/-- **Positions and offsets correspond one to one.**  Every offset of a text is that of the line
which the line feeds before it count and of the column which counts on from the last of these.  The
offset of a column in a line has so many line feeds before it as there are lines before, and a
column past the end of the line stands for its end.  A line past the last one gives an offset behind
the text, and the text before the word there is that at the end of the text. -/
theorem positions_correspond (content : List Char) :
    (∀ offset ≤ content.length,
      feedsBefore content offset < (lines content).length ∧
      sinceFeed content offset ≤ (lineAt content (feedsBefore content offset)).length ∧
      lineOffset (lines content) (feedsBefore content offset) (sinceFeed content offset) = offset) ∧
    (∀ line < (lines content).length, ∀ column,
      lineOffset (lines content) line column ≤ content.length ∧
      feedsBefore content (lineOffset (lines content) line column) = line ∧
      sinceFeed content (lineOffset (lines content) line column) =
        min column (lineAt content line).length) ∧
    ∀ line ≥ (lines content).length, ∀ column,
      lineOffset (lines content) line column = content.length + 1 ∧
      beforeWord content (lineOffset (lines content) line column) =
        beforeWord content content.length := by
  refine ⟨fun offset within => ?_, fun line known column => ?_, fun line beyond column => ?_⟩
  · have inside : offset < (ended (lines content)).length := by
      rw [ended_lines, List.length_append, List.length_singleton]
      exact Nat.lt_succ_of_le within
    obtain ⟨line, known, column, fits, rfl⟩ := exists_lineOffset_eq inside
    rw [← lineAt] at fits
    rw [feedsBefore_lineOffset known, sinceFeed_lineOffset known, Nat.min_eq_left fits]
    exact ⟨known, fits, rfl⟩
  · exact ⟨lineOffset_le known column, feedsBefore_lineOffset known column,
      sinceFeed_lineOffset known column⟩
  · have behind := lineOffset_of_length_le beyond column
    refine ⟨behind, ?_⟩
    rw [behind, beforeWord, beforeWord, List.take_of_length_le (Nat.le_succ _), List.take_length]

/-- An offset behind an empty line, a column past the end of a line, and a line past the last one of
a text that ends with a line feed. -/
theorem positions_correspond_feeds :
    3 ≤ "a\n\nbc\n".toList.length ∧ feedsBefore "a\n\nbc\n".toList 3 = 2 ∧
      lineOffset (lines "a\n\nbc\n".toList) 2 0 = 3 ∧
      2 < (lines "a\n\nbc\n".toList).length ∧
      feedsBefore "a\n\nbc\n".toList (lineOffset (lines "a\n\nbc\n".toList) 2 9) = 2 ∧
      4 ≥ (lines "a\n\nbc\n".toList).length ∧
      lineOffset (lines "a\n\nbc\n".toList) 4 0 = 7 := by
  obtain ⟨there, stays, behind⟩ := positions_correspond "a\n\nbc\n".toList
  obtain ⟨-, -, offset⟩ := there 3 (by decide)
  have feeds : feedsBefore "a\n\nbc\n".toList 3 = 2 := by decide
  have since : sinceFeed "a\n\nbc\n".toList 3 = 0 := by decide
  rw [feeds, since] at offset
  exact ⟨by decide, feeds, offset, by decide, (stays 2 (by decide) 9).2.1, by decide,
    (behind 4 (by decide) 0).1⟩

end ModelAssist.Text
