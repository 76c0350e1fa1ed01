import Mathlib.Data.List.Infix
import ModelAssist.Diagnostic.Output
import ModelAssist.Diagnostic.Record

/-!
# The payload of a validator

A payload travels inside a problem segment, between other text and with its single quotes escaped.
The marks of a segment overlap no shifted copy of themselves, so a mark is found where it was put
(`ValidatorOutput.separate_segment`); the braces of the payload are the outermost ones of the
segment, and unescaping undoes the escapes.  So the records of a payload are recovered whatever
surrounds it (`ValidatorRecord.read_split_framed`).
-/

namespace ModelAssist

namespace ValidatorOutput

/-- Holds of the marks that overlap no shifted copy of themselves. -/
def IsUnbordered (mark : List Char) : Prop :=
  ∀ shift < mark.length, 0 < shift → ¬ mark.drop shift <+: mark

/-- A mark does not overlap with itself. -/
theorem isUnbordered_nextMark (inside : Bool) : IsUnbordered (nextMark inside) := by
  cases inside <;> simp only [IsUnbordered] <;> decide

/-- A mark that follows a text does not begin within that text. -/
theorem not_isPrefix_of_unbordered {mark text : List Char} (unbordered : IsUnbordered mark)
    (unmarked : ¬ mark <:+: text) (some_ : text ≠ []) (rest : List Char) :
    ¬ mark <+: text ++ mark ++ rest := by
  intro begins
  rw [List.append_assoc] at begins
  rcases Nat.lt_or_ge text.length mark.length with short | long
  · -- The mark reaches into its copy behind the text, which would be a border.
    have start : text <+: mark :=
      List.prefix_of_prefix_length_le (List.prefix_append _ _) begins short.le
    obtain ⟨shifted, rfl⟩ := start
    have inner : shifted <+: text ++ shifted ++ rest :=
      (List.prefix_append_right_inj text).mp begins
    have border : shifted <+: text ++ shifted :=
      List.prefix_of_prefix_length_le inner (List.prefix_append _ _) (by simp)
    refine unbordered text.length short (List.length_pos_iff.mpr some_) ?_
    rwa [List.drop_left]
  · have within : mark <+: text :=
      List.prefix_of_prefix_length_le begins (List.prefix_append _ _) long
    exact unmarked within.isInfix

/-- The two parts of an output with more text at the front of one of them. -/
def putIn (inside : Bool) (text : List Char) (parts : List Char × List Char) :
    List Char × List Char :=
  if inside then (parts.1, text ++ parts.2) else (text ++ parts.1, parts.2)

/-- Behind a mark the other part goes on. -/
theorem separate_mark (inside : Bool) (rest : List Char) :
    separate inside (nextMark inside ++ rest) = separate (!inside) rest := by
  cases inside <;> simp [separate, nextMark, openingMark, closingMark]

/-- A character at which no mark begins belongs to the present part. -/
theorem separate_cons {inside : Bool} {char : Char} {rest : List Char}
    (unmarked : ¬ nextMark inside <+: char :: rest) :
    separate inside (char :: rest) = putIn inside [char] (separate inside rest) := by
  rw [separate, if_neg (by rwa [List.isPrefixOf_iff_prefix])]
  cases inside <;> rfl

/-- A text without a mark goes into one part, whatever follows that does not begin a mark in it. -/
theorem separate_append {inside : Bool} {text : List Char} {rest : List Char}
    (unmarked : ∀ tail, tail <:+ text → tail ≠ [] → ¬ nextMark inside <+: tail ++ rest) :
    separate inside (text ++ rest) = putIn inside text (separate inside rest) := by
  induction text with
  | nil => cases inside <;> rfl
  | cons char text ih =>
      have first : ¬ nextMark inside <+: char :: (text ++ rest) :=
        unmarked _ List.suffix_rfl (List.cons_ne_nil _ _)
      rw [List.cons_append, separate_cons first,
        ih fun tail shorter => unmarked tail (shorter.trans (List.suffix_cons char text))]
      cases inside <;> simp [putIn]

/-- **A segment ends where its mark was put.** -/
theorem separate_segment {inside : Bool} {text : List Char}
    (unmarked : ¬ nextMark inside <:+: text) (rest : List Char) :
    separate inside (text ++ nextMark inside ++ rest) =
      putIn inside text (separate (!inside) rest) := by
  rw [List.append_assoc, separate_append, separate_mark]
  intro tail shorter some_
  rw [← List.append_assoc]
  exact not_isPrefix_of_unbordered (isUnbordered_nextMark inside)
    (fun within => unmarked (within.trans shorter.isInfix)) some_ rest

/-- A text without the mark of its end belongs to the present part as a whole. -/
theorem separate_unmarked {inside : Bool} {text : List Char}
    (unmarked : ¬ nextMark inside <:+: text) :
    separate inside text = putIn inside text ([], []) := by
  have whole : separate inside (text ++ []) = putIn inside text (separate inside []) := by
    refine separate_append fun tail shorter _ => ?_
    rw [List.append_nil]
    exact fun begins => unmarked (begins.isInfix.trans shorter.isInfix)
  rwa [List.append_nil, separate] at whole

/-- The marks of one segment split a text into what surrounds the segment and the segment. -/
theorem separate_framed {before segment after : List Char} (unopened : ¬ openingMark <:+: before)
    (unclosed : ¬ closingMark <:+: segment) (unopened' : ¬ openingMark <:+: after) :
    separate false (before ++ openingMark ++ segment ++ closingMark ++ after) =
      (before ++ after, segment) := by
  have opened : separate false (before ++ openingMark ++ (segment ++ closingMark ++ after)) =
      putIn false before (separate true (segment ++ closingMark ++ after)) :=
    @separate_segment false before unopened _
  have closed : separate true (segment ++ closingMark ++ after) =
      putIn true segment (separate false after) :=
    @separate_segment true segment unclosed after
  have outside : separate false after = putIn false after ([], []) :=
    @separate_unmarked false after unopened'
  simp only [List.append_assoc] at opened closed ⊢
  rw [opened, closed, outside]
  simp [putIn]

end ValidatorOutput

/-- The value of a text that starts with an opening brace is a record. -/
theorem Json.exists_record_of_read {rest : List Char} {value : Value}
    (accepted : Json.read ('\x7b' :: rest) = .ok value) : ∃ entries, value = .record entries := by
  cases whole : Json.readValue (('\x7b' :: rest).length + 1) ('\x7b' :: rest) with
  | error fault =>
      rw [Json.read, whole] at accepted
      cases accepted
  | ok found =>
      have same : found.1 = value := by
        rw [Json.read, whole] at accepted
        simp only [bind, Except.bind] at accepted
        split at accepted
        · exact Except.ok.inj accepted
        · cases accepted
      have unspaced : Json.skipSpace ('\x7b' :: rest) = '\x7b' :: rest := by simp [Json.skipSpace]
      rw [← same]
      rw [List.length_cons, Json.readValue, unspaced] at whole
      simp only at whole
      split at whole
      · exact ⟨[], by rw [← Except.ok.inj whole]⟩
      · cases entries : Json.readEntries (rest.length + 1) (Json.skipSpace rest) with
        | error fault =>
            rw [entries] at whole
            cases whole
        | ok read =>
            rw [entries] at whole
            exact ⟨_, by rw [← Except.ok.inj whole]⟩

namespace ValidatorRecord

/-- A text with its single quotes escaped, as the validator writes them. -/
def escapeQuotes (text : List Char) : List Char :=
  text.flatMap fun char => if char = '\'' then ['\\', '\''] else [char]

/-- A character that begins no escaped quote stands for itself. -/
theorem unescapeQuotes_cons {char : Char} {rest : List Char}
    (unescaped : char = '\\' → rest.head? ≠ some '\'') :
    unescapeQuotes (char :: rest) = char :: unescapeQuotes rest := by
  rw [unescapeQuotes]
  rintro rest' rfl rfl
  exact unescaped rfl rfl

/-- No escaped text begins with a quote. -/
theorem head?_escapeQuotes (text : List Char) : (escapeQuotes text).head? ≠ some '\'' := by
  cases text with
  | nil => simp [escapeQuotes]
  | cons char rest =>
      by_cases quote : char = '\''
      · simp [escapeQuotes, quote]
      · simp [escapeQuotes, quote]

/-- Unescaping undoes the escapes, also behind backslashes that belong to the text. -/
theorem unescapeQuotes_escapeQuotes (text : List Char) :
    unescapeQuotes (escapeQuotes text) = text := by
  induction text with
  | nil => rfl
  | cons char rest ih =>
      rw [escapeQuotes, List.flatMap_cons, ← escapeQuotes]
      by_cases quote : char = '\''
      · rw [if_pos quote, quote]
        change '\'' :: unescapeQuotes (escapeQuotes rest) = '\'' :: rest
        rw [ih]
      · rw [if_neg quote, List.singleton_append,
          unescapeQuotes_cons fun _ => head?_escapeQuotes rest, ih]

/-- What encloses a text is no matter of its quotes. -/
theorem escapeQuotes_enclosed (middle : List Char) :
    escapeQuotes ('\x7b' :: middle ++ ['\x7d']) = '\x7b' :: escapeQuotes middle ++ ['\x7d'] := by
  simp [escapeQuotes]

/-- The payload of a text is what its outermost braces enclose. -/
theorem payload?_enclosed {lead middle trail : List Char} (unopened : '\x7b' ∉ lead)
    (closed : '\x7d' ∉ trail) :
    payload? (lead ++ ('\x7b' :: middle ++ ['\x7d']) ++ trail) =
      some ('\x7b' :: middle ++ ['\x7d']) := by
  have opening : (lead ++ ('\x7b' :: middle ++ ['\x7d']) ++ trail).dropWhile (· ≠ '\x7b') =
      '\x7b' :: middle ++ ['\x7d'] ++ trail := by
    rw [List.append_assoc, List.dropWhile_append_of_pos]
    · simp
    · exact fun char member => decide_eq_true fun same => unopened (same ▸ member)
  have closing : ('\x7b' :: middle ++ ['\x7d'] ++ trail).reverse.dropWhile (· ≠ '\x7d') =
      ('\x7b' :: middle ++ ['\x7d']).reverse := by
    rw [List.reverse_append, List.dropWhile_append_of_pos]
    · simp
    · exact fun char member =>
        decide_eq_true fun same => closed (List.mem_reverse.mp (same ▸ member))
  simp only [payload?]
  rw [opening, closing, List.reverse_reverse, if_neg (by simp)]

/-- The objects in a list of values, in order. -/
def objects (values : List Value) : List Entries :=
  values.filterMap fun value =>
    match value with
    | .record entries => some entries
    | _ => none

/-- What the records of a payload come to: those of the objects in its results, if it has any. -/
theorem read_of_payload {problems : String} {payload : List Char} {entries : Entries}
    (enclosed : payload? problems.toList = some payload)
    (accepted : Json.read (unescapeQuotes payload) = .ok (.record entries)) :
    read problems =
      match entries.field? "results" with
      | some (.list results) => (objects results).mapM ofEntry
      | _ => .ok [] := by
  rw [read, enclosed]
  simp only [accepted]
  rfl

/-- **A payload is recovered whatever surrounds it.**  The text before the segment and behind it is
the ordinary output, and of the segment only the payload counts, in which every single quote was
escaped: its records are those of the objects in its results, in order, or its first fault. -/
theorem read_split_framed {before lead middle trail after : List Char} {value : Value}
    (accepted : Json.read ('\x7b' :: middle ++ ['\x7d']) = .ok value)
    (unopened : ¬ ValidatorOutput.openingMark <:+: before) (noBrace : '\x7b' ∉ lead)
    (noClosingBrace : '\x7d' ∉ trail)
    (unclosed : ¬ ValidatorOutput.closingMark <:+:
      lead ++ escapeQuotes ('\x7b' :: middle ++ ['\x7d']) ++ trail)
    (unopened' : ¬ ValidatorOutput.openingMark <:+: after) :
    let segment := lead ++ escapeQuotes ('\x7b' :: middle ++ ['\x7d']) ++ trail
    let output := ValidatorOutput.split <| String.ofList <|
      before ++ ValidatorOutput.openingMark ++ segment ++ ValidatorOutput.closingMark ++ after
    output.ordinary = String.ofList (before ++ after) ∧
      ∃ entries : Entries, value = .record entries ∧
        read output.problems =
          match entries.field? "results" with
          | some (.list results) => (objects results).mapM ofEntry
          | _ => .ok [] := by
  intro segment output
  obtain ⟨entries, rfl⟩ := Json.exists_record_of_read accepted
  have written : output = ⟨String.ofList (before ++ after), String.ofList segment⟩ := by
    have parts := ValidatorOutput.separate_framed unopened unclosed unopened'
    simp only [output, ValidatorOutput.split, String.toList_ofList]
    rw [parts]
  refine ⟨by rw [written], entries, rfl, ?_⟩
  rw [written]
  have enclosed : payload? segment = some ('\x7b' :: escapeQuotes middle ++ ['\x7d']) := by
    simp only [segment, escapeQuotes_enclosed]
    exact payload?_enclosed noBrace noClosingBrace
  refine read_of_payload (by rwa [String.toList_ofList]) ?_
  rw [← escapeQuotes_enclosed, unescapeQuotes_escapeQuotes]
  exact accepted

/-- Results with a backslash, a quote and a brace in a message. -/
private def oddResults : List Char :=
  "\"results\":[\x7b\"message\":\"a\\\\'s \x7d\"\x7d,[]]".toList

/-- The records are recovered between half marks and stray braces. -/
theorem read_split_framed_odd :
    let segment :=
      "\x7d! ".toList ++ escapeQuotes ('\x7b' :: oddResults ++ ['\x7d']) ++ "\x7b!!".toList
    let output := ValidatorOutput.split <| String.ofList <|
      "ERROR!".toList ++ ValidatorOutput.openingMark ++ segment ++
        ValidatorOutput.closingMark ++ "!!".toList
    output.ordinary = String.ofList ("ERROR!".toList ++ "!!".toList) ∧
      read output.problems = .ok [⟨"", 1, .ofNumber 3, none, "a\\'s \x7d"⟩] := by
  intro segment output
  have accepted : Json.read ('\x7b' :: oddResults ++ ['\x7d']) = .ok (.record
      [(.text "results", .list [.record [(.text "message", .text "a\\'s \x7d")], .list []])]) := by
    cbv
  have unclosed : ¬ ValidatorOutput.closingMark <:+:
      "\x7d! ".toList ++ escapeQuotes ('\x7b' :: oddResults ++ ['\x7d']) ++ "\x7b!!".toList := by
    decide +kernel
  obtain ⟨ordinary, entries, same, records⟩ := read_split_framed accepted
    (by decide : ¬ ValidatorOutput.openingMark <:+: "ERROR!".toList)
    (by decide : '\x7b' ∉ "\x7d! ".toList) (by decide : '\x7d' ∉ "\x7b!!".toList) unclosed
    (by decide : ¬ ValidatorOutput.openingMark <:+: "!!".toList)
  refine ⟨ordinary, records.trans ?_⟩
  cases same
  rfl

end ValidatorRecord

end ModelAssist
