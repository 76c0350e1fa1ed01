import ModelAssist.Diagnostic.Record
import ModelAssist.Import.LineMap
import ModelAssist.Text.CodeRange

/-!
# Placement of validator records

A record about the document marks its line from the first character that is not blank.  A record
about an imported file marks the `use` line that pulls the file in and names its origin in the
message.  Records about other files are left out.
-/

namespace ModelAssist.Placement

/-- The lines of a text, separated by line feeds with or without a carriage return before them. -/
def lines : List Char → List (List Char)
  | [] => [[]]
  | '\r' :: '\n' :: rest => [] :: lines rest
  | '\n' :: rest => [] :: lines rest
  | char :: rest =>
    match lines rest with
    | [] => [[char]]
    | line :: others => (char :: line) :: others

/-- The message of a record with its code in front. -/
def described (record : ValidatorRecord) : String :=
  match record.code with
  | some code => code ++ ": " ++ record.message
  | none => record.message

/-- The column of the first character that is not blank; a line of blanks starts at its start. -/
def firstColumn (line : List Char) : Nat :=
  let blanks := line.length - (Text.trimStart line).length
  if blanks < line.length then blanks else 0

/-- The diagnostic of a record about the document. -/
def ofDocument (lines : List (List Char)) (record : ValidatorRecord) : Diagnostic :=
  let line := (record.line - 1).toNat
  let text := lines.getD line []
  { start := ⟨line, firstColumn text⟩
    stop := ⟨line, text.length⟩
    severity := record.severity
    message := described record }

/-- The diagnostic of a record about a file that a line of the document imports. -/
def ofImported (lines : List (List Char)) (useLine : Nat) (record : ValidatorRecord) :
    Diagnostic :=
  { start := ⟨useLine, 0⟩
    stop := ⟨useLine, (lines.getD useLine []).length⟩
    severity := record.severity
    message := "In imported file (" ++ record.filename ++ ":" ++ Number.intText record.line ++
      "): " ++ described record }

/-- Holds of the records that are about the document with the given file name. -/
def isOfDocument (filename : String) (record : ValidatorRecord) : Bool :=
  record.filename = "" || record.filename = filename

/-- The diagnostic of one record, if it concerns the document. -/
def place? (lines : List (List Char)) (filename : String) (imports : ImportLines)
    (record : ValidatorRecord) : Option Diagnostic :=
  if isOfDocument filename record then some (ofDocument lines record)
  else (imports.get? record.filename).map fun useLine => ofImported lines useLine record

/-- The diagnostics of some records for a document with the given text and file name. -/
def diagnostics (records : List ValidatorRecord) (text filename : String)
    (imports : ImportLines) : List Diagnostic :=
  records.filterMap (place? (lines text.toList) filename imports)

end ModelAssist.Placement
