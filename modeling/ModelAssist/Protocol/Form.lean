import ModelAssist.Completion.Item
import ModelAssist.Data.Access
import ModelAssist.Diagnostic.Basic

/-!
# Forms of the protocol

Diagnostics, completion items and locations as an editor is told of them.
-/

namespace ModelAssist.Protocol

/-- The number of a kind of symbols in the protocol. -/
def symbolNumber : SymbolKind → Nat
  | .class | .trait => 7
  | .interface => 8
  | .enumeration => 13
  | .attribute => 5
  | .method => 2
  | .state => 20
  | .stateMachine | .mixset => 9
  | .association => 18
  | .requirement => 1
  | .template => 15

/-- The number of a sort of items in the protocol. -/
def sortNumber : ItemKind → Nat
  | .keyword => 14
  | .operator => 24
  | .builtinType => 25
  | .file => 17
  | .symbol => 1

/-- The number of an item in the protocol: that of its symbol if it has one, or else of its sort. -/
def itemNumber (item : CompletionItem) : Nat :=
  match item.symbolKind with
  | some kind => symbolNumber kind
  | none => sortNumber item.kind

/-- A replacement of text. -/
structure TextEdit where
  /-- Where the replaced text starts. -/
  start : Position
  stop : Position
  text : String
deriving DecidableEq, Repr, Inhabited

/-- The replacement that an item at a position makes, if it does not just go on from there. -/
def itemEdit? (item : CompletionItem) (position : Position) : Option TextEdit :=
  if item.replaced = 0 then none
  else
    some ⟨⟨position.line, ((position.column : Int) - item.replaced).toNat⟩, position, item.label⟩

/-- A record of the fields that are there. -/
def record (fields : List (String × Option Value)) : Value :=
  .ofFields (fields.filterMap fun (name, value) => value.map (name, ·))

/-- A position. -/
def position (position : Position) : Value :=
  .ofFields [("line", .ofNat position.line), ("character", .ofNat position.column)]

/-- A range. -/
def range (start stop : Position) : Value :=
  .ofFields [("start", position start), ("end", position stop)]

/-- The largest line or column that the protocol knows. -/
def positionLimit : Nat := Nat.pow 2 31 - 1

/-- Holds of the positions that the protocol knows. -/
def knowsPosition (position : Position) : Bool :=
  position.line ≤ positionLimit && position.column ≤ positionLimit

/-- Holds of the diagnostics at positions that the protocol knows. -/
def knows (diagnostic : Diagnostic) : Bool :=
  knowsPosition diagnostic.start && knowsPosition diagnostic.stop

/-- A diagnostic. -/
def diagnostic (diagnostic : Diagnostic) : Value :=
  .ofFields [("range", range diagnostic.start diagnostic.stop),
    ("message", .text diagnostic.message),
    ("severity", .ofNat diagnostic.severity.number), ("source", .text Diagnostic.source)]

/-- A replacement. -/
def textEdit (edit : TextEdit) : Value :=
  .ofFields [("newText", .text edit.text), ("range", range edit.start edit.stop)]

/-- A completion item at a position. -/
def item (item : CompletionItem) (position : Position) : Value :=
  record [("label", some (.text item.label)), ("kind", some (.ofNat (itemNumber item))),
    ("detail", item.detail.map .text), ("textEdit", (itemEdit? item position).map textEdit)]

/-- A place in a document. -/
def location (uri : String) (start stop : Position) : Value :=
  .ofFields [("uri", .text uri), ("range", range start stop)]

end ModelAssist.Protocol
