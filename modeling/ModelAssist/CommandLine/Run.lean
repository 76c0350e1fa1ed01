import ModelAssist.CommandLine.Request
import ModelAssist.CommandLine.Table
import ModelAssist.Concurrency.Agenda
import ModelAssist.Session.Basic
import ModelAssist.Symbol.Index

/-!
# Runs of the program

What a run of the program prints and how it ends.  Wrong arguments end it with the status 2; a
failure, or a model with errors, with the status 1.
-/

namespace ModelAssist

variable [Host]

/-- What a run prints, and how it ends. -/
structure CommandOutput where
  status : Nat
  printed : List String
  /-- What it prints about itself. -/
  complaints : List String
deriving DecidableEq, Repr, Inhabited

/-- Why a run ends without an output. -/
inductive CommandFault where
  /-- The settings cannot be loaded. -/
  | settings (fault : LoadFault)
  | text (fault : TextFault)
  /-- The source of the grammar breaks. -/
  | grammar (message : String)
  /-- The validation ended early. -/
  | validation (fault : ValidationFault)
deriving Inhabited

/-- How a run ends. -/
inductive CommandEnd where
  | finished (output : CommandOutput)
  /-- It works for editors from now on. -/
  | serving (transport : Transport)
  /-- Without an output. -/
  | broken (fault : CommandFault)
deriving Inhabited

namespace CommandOutput

/-- An output of nothing but complaints. -/
def complaint (status : Nat) (lines : List String) : CommandOutput := ⟨status, [], lines⟩

/-- The output after wrong arguments: how the command is used, where there is help, and what is
wrong.  If nothing was asked for, it is the help itself. -/
def ofUsage (error : UsageError) : CommandOutput :=
  complaint 2 <|
    if error.fault = .nothingAsked then error.shape.help
    else
      [error.shape.usage, "Try '" ++ error.shape.call ++ " --help' for help.", "",
        "Error: " ++ error.fault.message]

/-- The output after a failure. -/
def ofFailure (message : String) : CommandOutput :=
  complaint 1 ["Error: " ++ message]

/-- What is said at the end of a validation with so many errors and warnings. -/
def verdict (errors warnings : Nat) : String :=
  if 0 < errors then
    "✗ " ++ Number.intText errors ++ " error(s), " ++ Number.intText warnings ++ " warning(s)"
  else if 0 < warnings then "! " ++ Number.intText warnings ++ " warning(s)"
  else "✓ No problems"

/-- The output after a validation of a file. -/
def ofDiagnostics (path : Path) (found : List Diagnostic) : CommandOutput :=
  let errors := found.countP (·.severity = .error)
  ⟨if 0 < errors then 1 else 0, found.map (Diagnostic.report path),
    [verdict errors (found.length - errors)]⟩

end CommandOutput

namespace CommandEnd

/-- The end of a run for want of settings. -/
def ofLoadFault : LoadFault → CommandEnd
  | .failure cause => .finished (.ofFailure cause.message)
  | fault => .broken (.settings fault)

/-- The end of a run whose validation ended early. -/
def ofValidationFault : ValidationFault → CommandEnd
  | .failure cause => .finished (.ofFailure cause.message)
  | fault => .broken (.validation fault)

end CommandEnd

/-- A validation that is not part of a session. -/
structure SingleValidation where
  bench : Workbench
  result : Option (Except ValidationFault (List Diagnostic))

namespace SingleValidation

/-- The workbench of a validation. -/
def part : Part SingleValidation Workbench :=
  ⟨bench, fun bench validation => { validation with bench }⟩

/-- Validates a text and keeps what comes of it. -/
def act (settings : ValidatorSettings) (path : Path) (text : String) :
    ValidationAct SingleValidation Unit := do
  let ended ← Act.attempt (Validation.validate part settings path text none)
  let result := match ended with
    | .ok found => some (.ok found)
    | .error (.fault fault) => some (.error fault)
    | .error .interrupted => none
  Act.change fun validation => { validation with result }

/-- The validation of a text after it ended. -/
def run (bench : Workbench) (settings : ValidatorSettings) (path : Path) (text : String) :
    SingleValidation :=
  let start : Agenda SingleValidation (Except ValidationFault ValidatorOutput) :=
    Agenda.initial ⟨bench, none⟩
  (start.perform (Act.run (act settings path text))).state

end SingleValidation

namespace CommandRequest

variable (source : SessionSource) (bench : Workbench)

/-- The workbench with the grammar that some settings ask for. -/
def equipped (settings : Settings) : Except CommandFault Workbench := do
  let grammar ← (Grammar.loadIfAvailable source.supply settings.grammar).mapError .grammar
  return { bench with workspace := { bench.workspace with grammar } }

/-- Validates a file. -/
def runCheck (file : Path) (program : Option Path) : CommandEnd × Workbench :=
  let path := file.normalize
  let overrides : Entries := program.toList.map fun program =>
    (.text "validator", .ofFields [("jar_path", .text program.text)])
  let files := bench.workspace.files
  match Settings.load files source.environment path.parent overrides with
  | .error fault => (.ofLoadFault fault, bench)
  | .ok settings =>
    match equipped source bench settings, files.text path with
    | .error fault, _ => (.broken fault, bench)
    | .ok _, .error fault => (.broken (.text fault), bench)
    | .ok bench, .ok text =>
      let validation := SingleValidation.run bench settings.validator path (String.ofList text)
      let ended := match validation.result with
        | some (.error fault) => .ofValidationFault fault
        | some (.ok found) => .finished (.ofDiagnostics path found)
        | none => .finished (.ofDiagnostics path [])
      (ended, validation.bench)

/-- What the user is told when symbols are asked for without a grammar. -/
def noGrammarText : String :=
  "Umple grammar not available. Install tree-sitter-umple or set UMPLE_TREE_SITTER_LIBRARY."

/-- The symbols of a file and of all that it reaches, file by file in ascending order. -/
def allSymbols (workspace : Workspace) (path : Path) (text : String) : List SymbolEntry :=
  let index := (workspace.ensureIndexed path text).1.index
  let files := index.indexedFiles.mergeSort fun left right => !decide (right < left)
  files.flatMap index.fileSymbols

/-- Lists the symbols of a file. -/
def runSymbols (file : Path) : CommandEnd :=
  let path := file.normalize
  let files := bench.workspace.files
  match Settings.load files source.environment path.parent [] with
  | .error fault => .ofLoadFault fault
  | .ok settings =>
    match equipped source bench settings, files.text path with
    | .error fault, _ => .broken fault
    | .ok bench, read =>
      if bench.workspace.grammar.isNone then .finished (.ofFailure noGrammarText)
      else
        match read with
        | .error fault => .broken (.text fault)
        | .ok text =>
          let symbols := allSymbols bench.workspace path (String.ofList text)
          .finished ⟨0, Table.ofSymbols path.parent symbols, []⟩

/-- Does what is asked for, and yields the workbench for a look at what was done. -/
def run : CommandRequest → CommandEnd × Workbench
  | .help shape => (.finished ⟨0, shape.help, []⟩, bench)
  | .version => (.finished ⟨0, [versionText], []⟩, bench)
  | .serve transport => (.serving transport, bench)
  | .check file program => runCheck source bench file program
  | .symbols file => (runSymbols source bench file, bench)

/-- Does what the arguments of the program ask for. -/
def runArguments (words : List String) : CommandEnd × Workbench :=
  match ofArguments bench.workspace.files words with
  | .error error => (.finished (.ofUsage error), bench)
  | .ok request => run source bench request

end CommandRequest

end ModelAssist
