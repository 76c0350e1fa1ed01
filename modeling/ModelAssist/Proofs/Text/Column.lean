import Mathlib.Order.Monotone.Basic
import ModelAssist.Proofs.Text.Position

/-!
# Columns in characters and in bytes

The byte column of a character column and the character column of a byte column form a Galois
connection (`Text.byteColumn_le_iff`): a line has as many characters before a byte as its longest
beginning of whole characters that ends there.  All that the two functions owe each other follows
(`Text.columns_correspond`).
-/

namespace ModelAssist.Text

variable {char : Char} {rest line : List Char}

/-- A character moves the byte column by its own length. -/
theorem byteColumn_succ (column : Nat) :
    byteColumn (char :: rest) (column + 1) =
      (String.utf8EncodeChar char).length + byteColumn rest column := by
  rw [byteColumn, List.take_succ_cons, utf8, List.flatMap_cons, List.length_append, byteColumn,
    utf8]

/-- Inside its first character a line has no characters yet. -/
theorem charColumn_of_lt {column : Nat} (cut : column < (String.utf8EncodeChar char).length) :
    charColumn (char :: rest) column = 0 := by
  rw [charColumn, utf8, List.flatMap_cons, List.take_append_of_le_length (Nat.le_of_lt cut)]
  cases column with
  | zero => rw [List.take_zero, decodeDropping, decode, List.filterMap_nil, List.length_nil]
  | succ column =>
      rw [decodeDropping, decode_take_utf8EncodeChar (Nat.succ_pos column) cut]
      rfl

/-- Behind its first character a line has one character more than the rest has there. -/
theorem charColumn_add (column : Nat) :
    charColumn (char :: rest) ((String.utf8EncodeChar char).length + column) =
      charColumn rest column + 1 := by
  rw [charColumn, utf8, List.flatMap_cons, List.take_length_add_append, decodeDropping,
    decode_utf8EncodeChar_append]
  rfl

/-- **A character column does not lie behind a byte exactly if so many characters end before
it.** -/
theorem byteColumn_le_iff {column : Nat} (within : column ≤ line.length) (byte : Nat) :
    byteColumn line column ≤ byte ↔ column ≤ charColumn line byte := by
  induction line generalizing column byte with
  | nil =>
      obtain rfl : column = 0 := Nat.le_zero.mp within
      exact iff_of_true (Nat.zero_le _) (Nat.zero_le _)
  | cons char rest ih =>
      cases column with
      | zero => exact iff_of_true (Nat.zero_le _) (Nat.zero_le _)
      | succ column =>
          rw [byteColumn_succ]
          by_cases cut : byte < (String.utf8EncodeChar char).length
          · rw [charColumn_of_lt cut]
            omega
          · obtain ⟨byte, rfl⟩ := Nat.exists_eq_add_of_le (Nat.not_lt.mp cut)
            rw [charColumn_add, Nat.add_le_add_iff_left, ih (Nat.le_of_succ_le_succ within),
              Nat.add_le_add_iff_right]

/-- A character column stays within the line. -/
theorem charColumn_le (line : List Char) (byte : Nat) : charColumn line byte ≤ line.length := by
  induction line generalizing byte with
  | nil => simp [charColumn, utf8, decodeDropping, decode]
  | cons char rest ih =>
      by_cases cut : byte < (String.utf8EncodeChar char).length
      · rw [charColumn_of_lt cut]
        exact Nat.zero_le _
      · obtain ⟨byte, rfl⟩ := Nat.exists_eq_add_of_le (Nat.not_lt.mp cut)
        rw [charColumn_add, List.length_cons]
        exact Nat.succ_le_succ (ih byte)

/-- The character that contains a byte is the last one that does not start behind it. -/
theorem charColumn_eq {column byte : Nat} (within : column ≤ line.length)
    (starts : byteColumn line column ≤ byte)
    (ends : column < line.length → byte < byteColumn line (column + 1)) :
    charColumn line byte = column := by
  apply Nat.le_antisymm
  · refine Nat.le_of_not_lt fun further => ?_
    have below := Nat.lt_of_lt_of_le further (charColumn_le line byte)
    exact Nat.not_le_of_lt (ends below) ((byteColumn_le_iff below byte).mpr further)
  · exact (byteColumn_le_iff within byte).mp starts

/-- Later bytes do not stand in earlier columns. -/
theorem charColumn_mono (line : List Char) : Monotone (charColumn line) := by
  intro first last ordered
  have known := charColumn_le line first
  have starts := (byteColumn_le_iff known first).mpr (Nat.le_refl _)
  exact (byteColumn_le_iff known last).mp (Nat.le_trans starts ordered)

/-- **The columns in characters and in bytes form a Galois connection, so that the way to bytes and
back ends where it started, both keep the order, and both stop at the end of the line.** -/
theorem columns_correspond (line : List Char) :
    (∀ column ≤ line.length, ∀ byte,
      byteColumn line column ≤ byte ↔ column ≤ charColumn line byte) ∧
    (∀ column ≤ line.length, charColumn line (byteColumn line column) = column) ∧
    Monotone (byteColumn line) ∧ Monotone (charColumn line) ∧
    (∀ column, line.length ≤ column → byteColumn line column = (utf8 line).length) ∧
    (∀ byte, (utf8 line).length ≤ byte → charColumn line byte = line.length) ∧
    ∀ column < line.length, ∀ byte, byteColumn line column ≤ byte →
      byte < byteColumn line (column + 1) → charColumn line byte = column := by
  have clamped : ∀ column, line.length ≤ column → byteColumn line column = (utf8 line).length := by
    intro column beyond
    rw [byteColumn, List.take_of_length_le beyond]
  refine ⟨fun column within => byteColumn_le_iff within, ?_, fun first last => byteOffset_mono line,
    charColumn_mono line, clamped, ?_, ?_⟩
  · intro column within
    apply charColumn_eq within (Nat.le_refl _)
    exact byteOffset_lt (Nat.lt_succ_self column)
  · intro byte beyond
    apply charColumn_eq (Nat.le_refl _)
    · rwa [clamped _ (Nat.le_refl _)]
    · exact fun below => absurd below (Nat.lt_irrefl _)
  · intro column below byte starts ends
    exact charColumn_eq (Nat.le_of_lt below) starts fun _ => ends

/-- Characters of one to four bytes, and bytes at the start of the last one, inside it and behind
it. -/
theorem columns_correspond_mixed :
    3 ≤ "xé€😀".toList.length ∧ byteColumn "xé€😀".toList 3 = 6 ∧
      charColumn "xé€😀".toList 6 = 3 ∧ charColumn "xé€😀".toList 8 = 3 ∧
      charColumn "xé€😀".toList 12 = 4 := by
  obtain ⟨-, back, -, -, -, clamped, inside⟩ := columns_correspond "xé€😀".toList
  have start : byteColumn "xé€😀".toList 3 = 6 := by decide
  have there := back 3 (by decide)
  rw [start] at there
  exact ⟨by decide, start, there, inside 3 (by decide) 8 (by decide) (by decide),
    clamped 12 (by decide)⟩

end ModelAssist.Text
