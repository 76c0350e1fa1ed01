import ModelAssist.CommandLine.Shape
import ModelAssist.Number.Notation
import ModelAssist.Path.Basic
import ModelAssist.Symbol.Entry

/-!
# Tables

Rows of texts in columns, each column as wide as its widest text, and the table of symbols.
-/

namespace ModelAssist.Table

/-- The widest text of every column. -/
def widths : List (List String) → List Nat
  | [] => []
  | row :: rows => widen (row.map Text.cells) (widths rows)
where
  /-- The larger one of two widths in every column. -/
  widen : List Nat → List Nat → List Nat
    | width :: widths, other :: others => max width other :: widen widths others
    | widths, [] => widths
    | [], others => others

/-- A row in columns of the given widths, with two spaces between them. -/
def line (widths : List Nat) (row : List String) : String :=
  String.intercalate "  " (List.zipWith CommandShape.padded widths row)

/-- Rows in columns. -/
def lines (rows : List (List String)) : List String :=
  rows.map (line (widths rows))

/-- A path as seen from a directory: below it only the rest is shown. -/
def shownFrom (directory path : Path) : String :=
  match path.partsBelow? directory with
  | some parts => Path.text ⟨.working, parts⟩
  | none => path.text

/-- The row of a symbol. -/
def symbolRow (directory : Path) (symbol : SymbolEntry) : List String :=
  [symbol.name, symbol.kind.name, symbol.container.getD "",
    shownFrom directory (Path.ofText symbol.file) ++ ":" ++
      Number.intText (symbol.start.line + 1)]

/-- The table of some symbols, as seen from a directory. -/
def ofSymbols (directory : Path) (symbols : List SymbolEntry) : List String :=
  lines (["name", "kind", "container", "location"] :: symbols.map (symbolRow directory))

end ModelAssist.Table
