import ModelAssist.Text.Utf8

/-!
# Positions in a text

Editors count characters and syntax trees count bytes.  This module splits a text into lines and
turns columns and offsets of one kind into the other.  A column past the end of a line stands for
the end of the line.
-/

namespace ModelAssist.Text

/-- The lines of a text, which are separated by line feeds only. -/
def lines : List Char → List (List Char)
  | [] => [[]]
  | char :: rest =>
    if char = '\n' then [] :: lines rest
    else
      match lines rest with
      | [] => [[char]]
      | line :: others => (char :: line) :: others

/-- The line with the given number, empty past the last one. -/
def lineAt (content : List Char) (line : Nat) : List Char :=
  (lines content).getD line []

/-- The byte column of a character column. -/
def byteColumn (line : List Char) (column : Nat) : Nat :=
  (utf8 (line.take column)).length

/-- The character column of a byte column; inside a character it is that of the character. -/
def charColumn (line : List Char) (column : Nat) : Nat :=
  (decodeDropping ((utf8 line).take column)).length

/-- The byte offset of a character offset. -/
def byteOffset (content : List Char) (offset : Nat) : Nat :=
  (utf8 (content.take offset)).length

/-- The character offset of a line and a column. -/
def lineOffset (lines : List (List Char)) (line column : Nat) : Nat :=
  ((lines.take line).map (·.length + 1)).foldr (· + ·) 0 +
    match lines[line]? with
    | some text => min column text.length
    | none => 0

/-- A row and a byte column. -/
structure Point where
  /-- The number of line feeds before the point. -/
  row : Nat
  /-- The number of bytes between the last of these and the point. -/
  column : Nat
deriving DecidableEq, Repr, Inhabited

namespace Point

/-- Holds if the first point does not lie behind the second. -/
def atMost (left right : Point) : Bool :=
  left.row < right.row || (left.row == right.row && left.column ≤ right.column)

/-- Holds if the first point lies before the second. -/
def before (left right : Point) : Bool :=
  left.row < right.row || (left.row == right.row && left.column < right.column)

/-- The point reached from the start by reading some bytes. -/
def ofBytes (bytes : List UInt8) : Point :=
  bytes.foldl
    (fun point byte => if byte = 10 then ⟨point.row + 1, 0⟩ else ⟨point.row, point.column + 1⟩)
    ⟨0, 0⟩

end Point

end ModelAssist.Text
