import Mathlib.Data.List.Induction
import ModelAssist.Proofs.Text.Ascii
import ModelAssist.Proofs.Text.Utf8
import ModelAssist.Text.Position

/-!
# Offsets and points

Offsets count from the start of a text and points from the start of a line.  The points of a text
are ordered like the offsets (`Text.Point.before_ofBytes_iff`), and the point of a line and a column
is that of the offset which they stand for (`Text.ofBytes_lineOffset`).  The point where a text ends
tells its last line, however the text goes on (`Text.exists_lead`).
-/

namespace ModelAssist.Text

variable {text : List Char}

/-- Texts are encoded one after the other. -/
theorem utf8_append (first second : List Char) :
    utf8 (first ++ second) = utf8 first ++ utf8 second :=
  List.flatMap_append

theorem take_utf8 (text : List Char) (offset : Nat) :
    (utf8 text).take (byteOffset text offset) = utf8 (text.take offset) := by
  have whole : utf8 text = utf8 (text.take offset) ++ utf8 (text.drop offset) := by
    rw [← utf8_append, List.take_append_drop]
  rw [whole]
  exact List.take_left

theorem byteOffset_add_one {index : Nat} {char : Char} (there : text[index]? = some char) :
    byteOffset text (index + 1) =
      byteOffset text index + (String.utf8EncodeChar char).length := by
  rw [byteOffset, List.take_add_one, there, utf8_append, List.length_append]
  simp [byteOffset, utf8]

/-- At the byte offset of a character its bytes start. -/
theorem getElem?_utf8 {index : Nat} {char : Char} (there : text[index]? = some char) :
    ∃ byte ∈ String.utf8EncodeChar char, (utf8 text)[byteOffset text index]? = some byte := by
  obtain ⟨byte, more, encoded⟩ := List.exists_cons_of_ne_nil (@String.utf8EncodeChar_ne_nil char)
  obtain ⟨known, rfl⟩ := List.getElem?_eq_some_iff.mp there
  refine ⟨byte, by rw [encoded]; exact List.mem_cons_self, ?_⟩
  have whole : utf8 text = utf8 (text.take index) ++ utf8 (text.drop index) := by
    rw [← utf8_append, List.take_append_drop]
  rw [whole, byteOffset, List.getElem?_append_right (Nat.le_refl _), Nat.sub_self,
    List.drop_eq_getElem_cons known, utf8, List.flatMap_cons, encoded]
  rfl

/-- The bytes before an offset are bytes of the text. -/
theorem byteOffset_le (text : List Char) (offset : Nat) :
    byteOffset text offset ≤ (utf8 text).length := by
  conv_rhs => rw [← List.take_append_drop offset text, utf8_append, List.length_append]
  exact Nat.le_add_right _ _

/-- Later offsets do not have fewer bytes before them. -/
theorem byteOffset_mono (text : List Char) {first last : Nat} (ordered : first ≤ last) :
    byteOffset text first ≤ byteOffset text last := by
  have shorter := byteOffset_le (text.take last) first
  rwa [byteOffset, List.take_take, Nat.min_eq_left ordered] at shorter

theorem byteOffset_lt {first last : Nat} (less : first < last) (within : last ≤ text.length) :
    byteOffset text first < byteOffset text last := by
  have there := List.getElem?_eq_getElem (Nat.lt_of_lt_of_le less within)
  have bytes := List.length_pos_iff.mpr (@String.utf8EncodeChar_ne_nil text[first])
  calc byteOffset text first
      < byteOffset text first + (String.utf8EncodeChar text[first]).length :=
        Nat.lt_add_of_pos_right bytes
    _ = byteOffset text (first + 1) := (byteOffset_add_one there).symm
    _ ≤ byteOffset text last := byteOffset_mono text less

namespace Point

theorem ofBytes_concat (bytes : List UInt8) (byte : UInt8) :
    ofBytes (bytes ++ [byte]) =
      if byte = 10 then ⟨(ofBytes bytes).row + 1, 0⟩
      else ⟨(ofBytes bytes).row, (ofBytes bytes).column + 1⟩ := by
  rw [ofBytes, List.foldl_append]
  rfl

theorem before_iff {first second : Point} :
    first.before second ↔
      first.row < second.row ∨ first.row = second.row ∧ first.column < second.column := by
  simp [before]

theorem atMost_iff {first second : Point} : first.atMost second ↔ ¬ second.before first := by
  rw [before_iff]
  simp only [atMost, Bool.or_eq_true, decide_eq_true_eq, Bool.and_eq_true, beq_iff_eq]
  omega

/-- Reading on leads to a later point. -/
theorem before_append (bytes : List UInt8) {more : List UInt8} (some_ : more ≠ []) :
    (ofBytes bytes).before (ofBytes (bytes ++ more)) := by
  induction more using List.reverseRecOn with
  | nil => exact absurd rfl some_
  | append_singleton more last ih =>
      have next : (ofBytes (bytes ++ more)).before (ofBytes (bytes ++ more ++ [last])) := by
        rw [before_iff, ofBytes_concat]
        split
        · exact .inl (Nat.lt_succ_self _)
        · exact .inr ⟨rfl, Nat.lt_succ_self _⟩
      rw [← List.append_assoc]
      by_cases none_ : more = []
      · simpa [none_] using next
      · have earlier := ih none_
        rw [before_iff] at earlier next ⊢
        omega

/-- The points in a text are ordered like the offsets. -/
theorem before_ofBytes_iff (bytes : List UInt8) {first second : Nat} (inside : first ≤ bytes.length)
    (inside' : second ≤ bytes.length) :
    (ofBytes (bytes.take first)).before (ofBytes (bytes.take second)) ↔ first < second := by
  have ascends {low high : Nat} (below : low < high) (inside : high ≤ bytes.length) :
      (ofBytes (bytes.take low)).before (ofBytes (bytes.take high)) := by
    have split : bytes.take high = bytes.take low ++ (bytes.drop low).take (high - low) := by
      rw [← List.take_add, Nat.add_sub_cancel' (Nat.le_of_lt below)]
    rw [split]
    refine before_append _ fun none_ => ?_
    have length := congrArg List.length none_
    rw [List.length_take, List.length_drop, List.length_nil] at length
    omega
  constructor
  · intro before
    refine Nat.lt_of_not_le fun above => ?_
    rcases Nat.lt_or_eq_of_le above with below | rfl
    · have back := ascends below inside
      rw [before_iff] at before back
      omega
    · rw [before_iff] at before
      omega
  · exact fun below => ascends below inside'

end Point

/-- The point that is reached from a point by reading some bytes. -/
private def advance (point : Point) (bytes : List UInt8) : Point :=
  bytes.foldl
    (fun point byte => if byte = 10 then ⟨point.row + 1, 0⟩ else ⟨point.row, point.column + 1⟩)
    point

private theorem advance_append (point : Point) (first second : List UInt8) :
    advance point (first ++ second) = advance (advance point first) second :=
  List.foldl_append

/-- A line feed ends the row, and the bytes of every other character add to the column. -/
private theorem advance_utf8EncodeChar (point : Point) (char : Char) :
    advance point (String.utf8EncodeChar char) =
      if char = '\n' then ⟨point.row + 1, 0⟩
      else ⟨point.row, point.column + (String.utf8EncodeChar char).length⟩ := by
  split
  · next feed =>
      subst feed
      rfl
  · next other =>
      have none_ : ∀ byte ∈ String.utf8EncodeChar char, byte ≠ 10 := by
        rintro byte member rfl
        exact other (eq_of_mem_utf8EncodeChar member (by decide))
      revert none_
      generalize String.utf8EncodeChar char = bytes
      intro none_
      induction bytes generalizing point with
      | nil => rfl
      | cons first rest ih =>
          obtain ⟨different, none_⟩ := List.forall_mem_cons.mp none_
          rw [advance, List.foldl_cons, if_neg different, ← advance, ih _ none_, List.length_cons]
          simp only [Nat.add_assoc, Nat.add_comm 1]

/-- Every text has a line. -/
theorem lines_ne_nil (text : List Char) : lines text ≠ [] := by
  cases text with
  | nil => simp [lines]
  | cons char rest =>
      rw [lines]
      split
      · simp
      · split <;> simp

/-- The lines of a text after one more character in front. -/
private theorem lines_cons {char : Char} (rest : List Char) (other : char ≠ '\n') :
    ∃ line others, lines rest = line :: others ∧
      lines (char :: rest) = (char :: line) :: others := by
  obtain ⟨line, others, split⟩ := List.exists_cons_of_ne_nil (lines_ne_nil rest)
  refine ⟨line, others, split, ?_⟩
  rw [lines, if_neg other, split]

/-- A line feed ends a line, and the lines behind it follow those before it. -/
theorem lines_append_feed (text rest : List Char) :
    lines (text ++ '\n' :: rest) = lines text ++ lines rest := by
  induction text with
  | nil => simp [lines]
  | cons char text ih =>
      by_cases feed : char = '\n'
      · rw [List.cons_append, lines, if_pos feed, ih, lines, if_pos feed, List.cons_append]
      · obtain ⟨line, others, split, whole⟩ := lines_cons text feed
        rw [List.cons_append, lines, if_neg feed, ih, whole, split]
        rfl

/-- Only the lines of a text have characters. -/
theorem lt_length_lines {row column : Nat} (known : column < (lineAt text row).length) :
    row < (lines text).length := by
  refine Nat.lt_of_not_le fun beyond => ?_
  rw [lineAt, List.getD_eq_getElem?_getD, List.getElem?_eq_none beyond] at known
  exact Nat.not_lt_zero _ known

theorem lineOffset_zero (first : List Char) (others : List (List Char)) (column : Nat) :
    lineOffset (first :: others) 0 column = min column first.length := by
  simp [lineOffset]

theorem lineOffset_succ (first : List Char) (others : List (List Char)) (line column : Nat) :
    lineOffset (first :: others) (line + 1) column =
      first.length + 1 + lineOffset others line column := by
  simp [lineOffset, Nat.add_assoc]

theorem lineOffset_add_one {lines : List (List Char)} {line column : Nat} {text : List Char}
    (known : lines[line]? = some text) (within : column + 1 ≤ text.length) :
    lineOffset lines line (column + 1) = lineOffset lines line column + 1 := by
  rw [lineOffset, lineOffset, known]
  simp only
  omega

private theorem advance_lineOffset (point : Point) (text : List Char) {line column : Nat}
    (known : line < (lines text).length) (within : column ≤ (lineAt text line).length) :
    advance point (utf8 (text.take (lineOffset (lines text) line column))) =
      ⟨point.row + line, (if line = 0 then point.column else 0) +
        byteColumn (lineAt text line) column⟩ := by
  induction text generalizing point line column with
  | nil =>
      obtain rfl : line = 0 := by simpa [lines] using known
      simp [utf8, advance, byteColumn, lineAt, lines]
  | cons char rest ih =>
      have next (offset : Nat) : advance point (utf8 ((char :: rest).take (offset + 1))) =
          advance (advance point (String.utf8EncodeChar char)) (utf8 (rest.take offset)) := by
        rw [List.take_succ_cons, ← advance_append]
        rfl
      rw [lineAt] at within ⊢
      by_cases feed : char = '\n'
      · have whole : lines (char :: rest) = [] :: lines rest := by rw [lines, if_pos feed]
        rw [whole] at known within ⊢
        cases line with
        | zero =>
            obtain rfl : column = 0 := by simpa using within
            simp [lineOffset_zero, utf8, advance, byteColumn]
        | succ line =>
            have known' : line < (lines rest).length := by simpa using known
            have within' : column ≤ (lineAt rest line).length := by simpa [lineAt] using within
            rw [lineOffset_succ, List.length_nil, Nat.zero_add, Nat.add_comm 1, next,
              advance_utf8EncodeChar, if_pos feed, ih _ known' within']
            simp [lineAt, Nat.add_assoc, Nat.add_comm 1]
      · obtain ⟨first, others, split, whole⟩ := lines_cons rest feed
        rw [whole] at known within ⊢
        cases line with
        | zero =>
            cases column with
            | zero => simp [lineOffset_zero, utf8, advance, byteColumn]
            | succ column =>
                have within' : column ≤ first.length := by simpa using within
                have here := @ih (advance point (String.utf8EncodeChar char)) 0 column
                  (by simp [split]) (by simpa [lineAt, split] using within')
                rw [split, lineOffset_zero, Nat.min_eq_left within'] at here
                rw [lineOffset_zero, List.length_cons,
                  Nat.min_eq_left (Nat.succ_le_succ within'), next, here, advance_utf8EncodeChar,
                  if_neg feed]
                simp [lineAt, split, byteColumn, utf8, Nat.add_assoc]
        | succ line =>
            have known' : line + 1 < (lines rest).length := by simpa [split] using known
            have within' : column ≤ (lineAt rest (line + 1)).length := by
              simpa [lineAt, split] using within
            have later := @ih (advance point (String.utf8EncodeChar char)) (line + 1) column
              known' within'
            rw [split, lineOffset_succ] at later
            rw [lineOffset_succ, List.length_cons,
              show first.length + 1 + 1 + lineOffset others line column =
                first.length + 1 + lineOffset others line column + 1 by omega, next, later,
              advance_utf8EncodeChar, if_neg feed]
            simp [lineAt, split]

/-- The point of a line and a column is that of the offset which they stand for. -/
theorem ofBytes_lineOffset (text : List Char) {line column : Nat}
    (known : line < (lines text).length) (within : column ≤ (lineAt text line).length) :
    Point.ofBytes (utf8 (text.take (lineOffset (lines text) line column))) =
      ⟨line, byteColumn (lineAt text line) column⟩ := by
  have start := advance_lineOffset ⟨0, 0⟩ text known within
  rw [ite_self, Nat.zero_add, Nat.zero_add] at start
  exact start

/-! ### The line that a text ends in -/

/-- Characters of one line lead on in this line. -/
theorem ofBytes_utf8_append (text : List Char) {word : List Char} (single : '\n' ∉ word) :
    Point.ofBytes (utf8 (text ++ word)) =
      ⟨(Point.ofBytes (utf8 text)).row,
        (Point.ofBytes (utf8 text)).column + (utf8 word).length⟩ := by
  rw [utf8_append]
  change advance _ (utf8 text ++ utf8 word) = _
  rw [advance_append]
  change advance (Point.ofBytes (utf8 text)) (utf8 word) = _
  generalize Point.ofBytes (utf8 text) = point
  induction word generalizing point with
  | nil => rfl
  | cons char rest ih =>
      rw [List.mem_cons, not_or] at single
      obtain ⟨other, single⟩ := single
      rw [utf8, List.flatMap_cons, advance_append, advance_utf8EncodeChar, if_neg (Ne.symm other),
        ← utf8, ih single, List.length_append, Nat.add_assoc]

/-- A word on one line extends the first line of what follows. -/
theorem lines_append_of_single {word : List Char} (single : '\n' ∉ word) (rest : List Char) :
    ∃ line others, lines rest = line :: others ∧
      lines (word ++ rest) = (word ++ line) :: others := by
  induction word with
  | nil =>
      obtain ⟨line, others, split⟩ := List.exists_cons_of_ne_nil (lines_ne_nil rest)
      exact ⟨line, others, split, split⟩
  | cons char word ih =>
      rw [List.mem_cons, not_or] at single
      obtain ⟨other, single⟩ := single
      obtain ⟨line, others, split, whole⟩ := ih single
      obtain ⟨line', others', split', whole'⟩ := lines_cons (word ++ rest) (Ne.symm other)
      obtain ⟨rfl, rfl⟩ := List.cons.inj (split'.symm.trans whole)
      exact ⟨line, others', split, whole'⟩

/-- The point at the end of a text tells the lines before and how far the last one goes, and the
last one goes on with what follows. -/
theorem exists_lead (text : List Char) :
    ∃ earlier lead, Point.ofBytes (utf8 text) = ⟨earlier.length, (utf8 lead).length⟩ ∧
      ∀ rest, ∃ line others, lines rest = line :: others ∧
        lines (text ++ rest) = earlier ++ (lead ++ line) :: others := by
  induction text using List.reverseRecOn with
  | nil =>
      refine ⟨[], [], rfl, fun rest => ?_⟩
      obtain ⟨line, others, split⟩ := List.exists_cons_of_ne_nil (lines_ne_nil rest)
      exact ⟨line, others, split, split⟩
  | append_singleton text char ih =>
      obtain ⟨earlier, lead, ends, goesOn⟩ := ih
      by_cases feed : char = '\n'
      · refine ⟨earlier ++ [lead], [], ?_, fun rest => ?_⟩
        · rw [utf8_append, feed]
          change Point.ofBytes (utf8 text ++ [10]) = _
          rw [Point.ofBytes_concat, if_pos rfl, ends, List.length_append]
          rfl
        · obtain ⟨line, others, split⟩ := List.exists_cons_of_ne_nil (lines_ne_nil rest)
          obtain ⟨first, later, begins, whole⟩ := goesOn ('\n' :: rest)
          rw [lines, if_pos rfl, split] at begins
          obtain ⟨rfl, rfl⟩ := List.cons.inj begins
          refine ⟨line, others, split, ?_⟩
          rw [feed, List.append_assoc, List.singleton_append, whole]
          simp
      · have single : '\n' ∉ [char] := by simpa using Ne.symm feed
        refine ⟨earlier, lead ++ [char], ?_, fun rest => ?_⟩
        · rw [ofBytes_utf8_append text single, ends, utf8_append, List.length_append]
        · obtain ⟨line, others, split, begins⟩ := lines_append_of_single single rest
          obtain ⟨first, later, begins', whole⟩ := goesOn ([char] ++ rest)
          obtain ⟨rfl, rfl⟩ := List.cons.inj (begins'.symm.trans begins)
          refine ⟨line, later, split, ?_⟩
          rw [List.append_assoc, whole, List.append_assoc]

/-- Characters of one line stand in a line between the points before and behind them. -/
theorem exists_line (before : List Char) {word : List Char} (single : '\n' ∉ word)
    (after : List Char) :
    ∃ row lead rest, (lines (before ++ word ++ after))[row]? = some (lead ++ word ++ rest) ∧
      Point.ofBytes (utf8 before) = ⟨row, (utf8 lead).length⟩ ∧
        Point.ofBytes (utf8 (before ++ word)) = ⟨row, (utf8 (lead ++ word)).length⟩ := by
  obtain ⟨earlier, lead, ends, goesOn⟩ := exists_lead before
  obtain ⟨rest, later, -, begins⟩ := lines_append_of_single single after
  obtain ⟨line, later', begins', whole⟩ := goesOn (word ++ after)
  obtain ⟨rfl, rfl⟩ := List.cons.inj (begins'.symm.trans begins)
  refine ⟨earlier.length, lead, rest, ?_, ends, ?_⟩
  · rw [List.append_assoc, whole, List.getElem?_append_right (Nat.le_refl _), Nat.sub_self,
      List.getElem?_cons_zero, List.append_assoc]
  · rw [ofBytes_utf8_append before single, ends, utf8_append, List.length_append]

/-- The byte column behind some characters of a line is read as their count. -/
theorem charColumn_append (lead rest : List Char) :
    charColumn (lead ++ rest) (utf8 lead).length = lead.length := by
  rw [charColumn, utf8_append, List.take_left, decodeDropping_utf8]

end ModelAssist.Text
