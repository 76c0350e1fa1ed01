import ModelAssist.Text.CodeRange

/-!
# Shapes of commands

What a command may be given, and the help that says so.
-/

namespace ModelAssist

/-- What stands behind the name of an option. -/
inductive OptionOperand where
  /-- Nothing: the option is there or not. -/
  | nothing
  | path
  | text
  | integer
deriving DecidableEq, Repr, Inhabited

/-- How the help names an operand. -/
def OptionOperand.label? : OptionOperand → Option String
  | .nothing => none
  | .path => some "PATH"
  | .text => some "TEXT"
  | .integer => some "INTEGER"

/-- What an option stands for. -/
inductive OptionRole where
  | help
  | version
  /-- The log is told everything. -/
  | verbose
  | validator
  /-- Editors connect over the network. -/
  | network
  /-- Where editors connect to. -/
  | host
  /-- The port that editors connect to. -/
  | port
deriving DecidableEq, Repr, Inhabited

/-- Holds of the options that end the work of a command at once. -/
def OptionRole.isEager : OptionRole → Bool
  | .help | .version => true
  | _ => false

/-- An option of a command.  Only an option without an operand has a letter. -/
structure OptionShape where
  role : OptionRole
  name : String
  /-- The letter that may be written instead. -/
  letter : Option Char := none
  /-- What stands behind its name. -/
  operand : OptionOperand := .nothing
  /-- What the help says about it. -/
  help : String
deriving DecidableEq, Repr, Inhabited

namespace OptionShape

/-- An option as it is written. -/
def written (option : OptionShape) : String := "--" ++ option.name

/-- How the help lists an option. -/
def listed (option : OptionShape) : String :=
  String.intercalate ", " ((option.letter.map fun letter => "-" ++ letter.toString).toList ++
      [option.written]) ++
    (option.operand.label?.map (" " ++ ·)).getD ""

end OptionShape

/-- What a command may be given. -/
structure CommandShape where
  call : String
  /-- What may follow its options. -/
  operands : List String := []
  /-- What the help says about it. -/
  about : List String
  options : List OptionShape
  /-- Set if its first operand is a command of its own, which takes all that follows. -/
  isGroup : Bool := false
  /-- The names of such commands with what the help says about them. -/
  commands : List (String × String) := []
deriving Repr, Inhabited

namespace CommandShape

/-- The option that shows the help. -/
def helpOption : OptionShape :=
  { role := .help, name := "help", help := "Show this message and exit." }

/-- The option with a name. -/
def withName? (shape : CommandShape) (name : String) : Option OptionShape :=
  shape.options.find? (·.written = name)

/-- The option with a letter. -/
def withLetter? (shape : CommandShape) (letter : Char) : Option OptionShape :=
  shape.options.find? (·.letter = some letter)

/-- How a command is used, in one line. -/
def usage (shape : CommandShape) : String :=
  "Usage: " ++ String.intercalate " " ([shape.call, "[OPTIONS]"] ++ shape.operands)

/-- A text followed by spaces up to a count of cells. -/
def padded (width : Nat) (text : String) : String :=
  text ++ String.ofList (List.replicate (width - Text.cells text) ' ')

/-- Rows of a term and what it means, the meanings below each other. -/
def glossary (rows : List (String × String)) : List String :=
  let width := (rows.map fun (term, _) => Text.cells term).foldl max 0
  rows.map fun (term, meaning) => "  " ++ padded (width + 2) term ++ meaning

/-- A part of the help under a title, left out where it would be empty. -/
def chapter (title : String) (rows : List (String × String)) : List String :=
  if rows.isEmpty then [] else ["", title] ++ glossary rows

/-- The help for a command. -/
def help (shape : CommandShape) : List String :=
  [shape.usage] ++ shape.about.flatMap (fun paragraph => ["", "  " ++ paragraph]) ++
    chapter "Options:" (shape.options.map fun option => (option.listed, option.help)) ++
    chapter "Commands:" shape.commands

end CommandShape

end ModelAssist
