import ModelAssist.Symbol.Entry

/-!
# Changes of documents

Editors tell of changes instead of sending the whole text again.  For them a line may end in other
ways than by a line feed, and columns count units of sixteen bits.  `fullLines_flatten` says that
nothing is lost when a text is cut into lines.
-/

namespace ModelAssist

namespace Text

/-- Holds of the characters that end a line for an editor. -/
def endsLine (char : Char) : Bool :=
  let code := char.toNat
  (10 ≤ code && code ≤ 13) || (0x1C ≤ code && code ≤ 0x1E) || code = 0x85 || code = 0x2028 ||
    code = 0x2029

/-- A text with a character put in front of its first line. -/
def consLine (char : Char) : List (List Char) → List (List Char)
  | [] => [[char]]
  | line :: others => (char :: line) :: others

/-- The lines of a text, each with what ends it. -/
def fullLines : List Char → List (List Char)
  | [] => []
  | [char] => [[char]]
  | char :: next :: rest =>
    if endsLine char && !(char = '\r' && next = '\n') then [char] :: fullLines (next :: rest)
    else consLine char (fullLines (next :: rest))

/-- A character put in front of the first line stands in front of the whole text. -/
theorem consLine_flatten (char : Char) (lines : List (List Char)) :
    (consLine char lines).flatten = char :: lines.flatten := by
  cases lines <;> rfl

/-- The lines of a text make up the text. -/
theorem fullLines_flatten (content : List Char) : (fullLines content).flatten = content := by
  fun_induction fullLines content with
  | case1 => rfl
  | case2 => rfl
  | case3 char next rest _ ih => simp [ih]
  | case4 char next rest _ ih => rw [consLine_flatten, ih]

/-- The count of units of sixteen bits that a character takes. -/
def unitsOf (char : Char) : Nat :=
  if char.toNat < 0x10000 then 1 else 2

/-- The column that lies a count of units behind the start of a line; inside a character it is the
column behind the character. -/
def columnOfUnits : List Char → Nat → Nat
  | _, 0 => 0
  | [], _ => 0
  | char :: rest, units => columnOfUnits rest (units - unitsOf char) + 1

/-- The part of some lines before a position. -/
def before (lines : List (List Char)) (position : Position) : List Char :=
  let line := lines.getD position.line []
  (lines.take position.line).flatten ++ line.take (columnOfUnits line position.column)

/-- The part of some lines behind a position. -/
def behind (lines : List (List Char)) (position : Position) : List Char :=
  let line := lines.getD position.line []
  line.drop (columnOfUnits line position.column) ++ (lines.drop (position.line + 1)).flatten

end Text

/-- A change of a text. -/
structure TextChange where
  /-- Where the replaced text starts and ends; without it all of the text is replaced. -/
  range : Option (Position × Position)
  /-- What takes its place. -/
  text : String
deriving DecidableEq, Repr, Inhabited

/-- A text after a change. -/
def TextChange.apply (change : TextChange) (content : String) : String :=
  match change.range with
  | none => change.text
  | some (start, stop) =>
    let lines := Text.fullLines content.toList
    String.ofList (Text.before lines start ++ change.text.toList ++ Text.behind lines stop)

end ModelAssist
