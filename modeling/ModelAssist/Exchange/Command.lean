import ModelAssist.CommandLine.Run
import ModelAssist.Data.Access
import ModelAssist.Text.CodeRange

/-!
# Runs for other programs

What runs of the program print and how they end, as structured values.
-/

namespace ModelAssist

/-- Printed lines as a list of texts, which end in no blanks. -/
def CommandOutput.linesToValue (lines : List String) : Value :=
  .ofTexts (lines.flatMap fun line =>
    (line.splitOn "\n").map fun part => String.ofList (Text.trimEnd part.toList))

/-- An output as fields. -/
def CommandOutput.toFields (output : CommandOutput) : List (String × Value) :=
  [("exit", .ofNat output.status), ("stdout", linesToValue output.printed),
    ("stderr", linesToValue output.complaints)]

/-- The way by which editors reach the program as a record. -/
def Transport.toValue : Transport → Value
  | .streams => .ofFields [("serve", .text "stdio")]
  | .network host port => .ofFields [("serve", .list [.text host, .int port])]

end ModelAssist
