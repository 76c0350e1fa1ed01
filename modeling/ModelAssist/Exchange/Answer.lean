import ModelAssist.Completion.Context
import ModelAssist.Completion.Item
import ModelAssist.Config.Settings
import ModelAssist.Data.Access
import ModelAssist.Diagnostic.Output
import ModelAssist.Diagnostic.Record
import ModelAssist.Document
import ModelAssist.Failure
import ModelAssist.Symbol.Inheritance
import ModelAssist.Symbol.Reference

/-!
# Answers to other programs

The results of lookups and validations as structured values, for programs that ask for them.
-/

namespace ModelAssist

/-- A position as a list of its line and its column. -/
def Position.toValue (position : Position) : Value :=
  .list [.ofNat position.line, .ofNat position.column]

/-- The position that a list of a line and a column stands for. -/
def Position.ofValue (value : Value) : Position :=
  match value.asList with
  | [line, column] => ⟨line.asNat, column.asNat⟩
  | _ => ⟨0, 0⟩

/-- A path or null. -/
def Path.toValue? : Option Path → Value
  | some path => .text path.text
  | none => .null

/-- A symbol as a record. -/
def SymbolEntry.toValue (symbol : SymbolEntry) : Value :=
  .ofFields [("name", .text symbol.name), ("kind", .text symbol.kind.name),
    ("file", .text symbol.file), ("start", symbol.start.toValue), ("end", symbol.stop.toValue),
    ("container", .ofText? symbol.container)]

/-- Symbols as a list of records. -/
def SymbolEntry.listToValue (symbols : List SymbolEntry) : Value :=
  .list (symbols.map toValue)

/-- The symbol that a record stands for, of the given file unless it says another. -/
def SymbolEntry.ofValue? (file : String) (value : Value) : Option SymbolEntry := do
  let kind ← SymbolKind.ofName? (value.get "kind").asText
  some {
    name := (value.get "name").asText
    kind
    file := (value.text? "file").getD file
    start := Position.ofValue (value.get "start")
    stop := Position.ofValue (value.get "end")
    container := value.text? "container" }

/-- Kinds as a list of their names. -/
def SymbolKind.listToValue (kinds : List SymbolKind) : Value :=
  .ofTexts (kinds.map name)

/-- The kinds that a name or a list of names stands for, all kinds if neither is given. -/
def SymbolKind.listOfValue? : Value → Option (List SymbolKind)
  | .null => none
  | .text name => some (ofName? name).toList
  | value => some (value.asTexts.filterMap ofName?)

/-- The condition that a record stands for. -/
def SymbolFilter.ofValue (value : Value) : SymbolFilter :=
  ⟨SymbolKind.listOfValue? (value.get "kinds"), value.text? "name"⟩

/-- A scope as a record, null if there is none. -/
def CompletionScope.toValue? : Option CompletionScope → Value
  | none => .null
  | some scope =>
    let name := match scope with
      | .symbols _ => "symbols"
      | .suppress => "suppress"
      | .usePath => "use_path"
      | .ownAttribute => "own_attribute"
    .ofFields [("kind", .text name), ("symbol_kinds", SymbolKind.listToValue scope.kinds)]

/-- A completion context as a record. -/
def CompletionContext.toValue (context : CompletionContext) : Value :=
  .ofFields [("keywords", .ofTexts context.keywords), ("operators", .ofTexts context.operators),
    ("scope", CompletionScope.toValue? context.scope),
    ("is_definition_name", .bool context.isDefinitionName),
    ("is_comment", .bool context.isComment), ("prefix", .text context.typed),
    ("enclosing_class", .ofText? context.enclosingClass),
    ("enclosing_state_machine", .ofText? context.enclosingStateMachine)]

/-- A completion item as a record. -/
def CompletionItem.toValue (item : CompletionItem) : Value :=
  .ofFields [("label", .text item.label), ("kind", .text item.kind.name),
    ("detail", .ofText? item.detail), ("symbol_kind", .ofText? (item.symbolKind.map (·.name))),
    ("replace_length", .int item.replaced)]

/-- The completion item that a record stands for. -/
def CompletionItem.ofValue (value : Value) : CompletionItem :=
  { label := (value.get "label").asText
    kind := (ItemKind.ofName? (value.get "kind").asText).getD .keyword
    detail := value.text? "detail"
    symbolKind := (value.text? "symbol_kind").bind SymbolKind.ofName?
    replaced := (value.get "replace_length").asInt }

/-- A reference as a record, null if there is none. -/
def Reference.toValue? : Option Reference → Value
  | none => .null
  | some reference =>
    .ofFields [("word", .text reference.word),
      ("kinds", reference.kinds.elim .null SymbolKind.listToValue),
      ("enclosing_class", .ofText? reference.enclosingClass),
      ("enclosing_state_machine", .ofText? reference.enclosingStateMachine)]

/-- The severity that a number stands for. -/
def Severity.ofValue (value : Value) : Severity :=
  if value.asInt = 2 then .warning else .error

/-- A diagnostic as a record. -/
def Diagnostic.toValue (diagnostic : Diagnostic) : Value :=
  .ofFields [("start", diagnostic.start.toValue), ("end", diagnostic.stop.toValue),
    ("severity", .ofNat diagnostic.severity.number), ("message", .text diagnostic.message),
    ("source", .text source)]

/-- Diagnostics as a list of records. -/
def Diagnostic.listToValue (diagnostics : List Diagnostic) : Value :=
  .list (diagnostics.map toValue)

/-- The diagnostic that a record stands for. -/
def Diagnostic.ofValue (value : Value) : Diagnostic :=
  { start := Position.ofValue (value.get "start")
    stop := Position.ofValue (value.get "end")
    severity := Severity.ofValue (value.get "severity")
    message := (value.get "message").asText }

/-- A validator record as a record of fields. -/
def ValidatorRecord.toValue (record : ValidatorRecord) : Value :=
  .ofFields [("filename", .text record.filename), ("line", .int record.line),
    ("severity", .ofNat record.severity.number), ("error_code", .ofText? record.errorCode),
    ("code", .ofText? record.code), ("message", .text record.message)]

/-- The validator record that a record of fields stands for. -/
def ValidatorRecord.ofValue (value : Value) : ValidatorRecord :=
  { filename := (value.get "filename").asText
    line := (value.get "line").asInt
    severity := Severity.ofValue (value.get "severity")
    errorCode := value.text? "error_code"
    message := (value.get "message").asText }

/-- The two parts of what the validator wrote, as a record. -/
def ValidatorOutput.toValue (output : ValidatorOutput) : Value :=
  .ofFields [("stdout", .text output.ordinary), ("stderr", .text output.problems)]

/-- A document as a record, null if there is none. -/
def Document.toValue? : Option Document → Value
  | none => .null
  | some document =>
    .ofFields [("uri", .text document.uri), ("path", Path.toValue? document.path),
      ("text", .text document.text), ("version", .int document.version)]

/-- A `use` statement as a record. -/
def UseStatement.toValue (statement : UseStatement) : Value :=
  .ofFields [("path", .text statement.target), ("line", .ofNat statement.line),
    ("is_file", .bool statement.isFile)]

/-- Inheritance edges as fields. -/
def InheritanceEdges.toFields (edges : InheritanceEdges) : List (String × Value) :=
  edges.entries.map fun (child, parents) => (child, .ofTexts parents)

/-- The failure of a sort with some arguments. -/
def Failure.ofArguments? (sort : String) (arguments : List Value) : Option Failure :=
  match sort, arguments, arguments.map Value.asText with
  | "parse_error", _, [path, reason] => some (.badDocument path (.unusable reason))
  | "invalid_value", [_, value, _], [name, _, reason] =>
    some (.badSetting name value.display reason)
  | "not_available", _, [source, reason] => some (.grammarUnavailable source reason)
  | "invalid_query", _, [query, reason] => some (.badQuery query reason)
  | "not_configured", _, _ => some .validatorNotSet
  | "jar_not_found", _, [path] => some (.validatorMissing path)
  | "java_missing", _, [java, reason] => some (.validatorNotStarted java reason)
  | "unreachable", [_, port, _], [host, _, reason] =>
    some (.validatorUnreachable host port.asInt reason)
  | "timeout", [_, port, seconds], host :: _ => some (.validatorTimeout host port.asInt seconds)
  | _, _, _ => none

/-- A failure as a record. -/
def Failure.toValue (failure : Failure) : Value :=
  .ofFields [("code", .ofNat failure.kind.code), ("error", .text failure.kind.name),
    ("message", .text failure.message), ("details", failure.details)]

/-- A place for log lines as a record. -/
def LogOutput.toValue (output : LogOutput) : Value :=
  .ofFields [("format", .text output.format.name), ("destination", .text output.destination),
    ("level", .ofText? (output.level.map LogLevel.name))]

/-- All settings as a record of sections. -/
def Settings.toValue (settings : Settings) : Value :=
  let logging := settings.logging
  let grammar := settings.grammar
  let validator := settings.validator
  let validation := settings.validation
  .ofFields [
    ("logging", .ofFields [("level", .text logging.level.name),
      ("outputs", .list (logging.outputs.map LogOutput.toValue))]),
    ("grammar", .ofFields [("module", .text grammar.module),
      ("library_path", .ofText? grammar.libraryPath), ("symbol", .text grammar.symbol)]),
    ("validator", .ofFields [("jar_path", .ofText? validator.jarPath),
      ("host", .text validator.host), ("port", .int validator.port),
      ("timeout_sec", .float validator.timeoutSeconds), ("java", .text validator.java),
      ("connect_retries", .int validator.connectRetries),
      ("retry_delay_sec", .float validator.retryDelaySeconds)]),
    ("validation", .ofFields [("debounce_sec", .float validation.debounceSeconds),
      ("dependent_debounce_sec", .float validation.dependentDebounceSeconds)])]

end ModelAssist
