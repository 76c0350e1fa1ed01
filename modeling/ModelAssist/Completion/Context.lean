import ModelAssist.Completion.Scope
import ModelAssist.Text.CodeRange

/-!
# Completion contexts

What may follow the cursor, read off the tree of the document as it stands.  In a comment and where
a new name is being typed nothing is offered.  Elsewhere the state of the grammar after the last
leaf gives the keywords and operators, and the innermost scope gives the symbols.
-/

namespace ModelAssist

open ModelAssist.Tree

/-- The words after which the next word is a new name. -/
def definitionKeywords : List String :=
  ["class", "interface", "trait", "enum", "mixset", "req", "associationClass", "statemachine",
    "namespace", "queued", "pooled", "emit"]

/-- The punctuation that is never offered. -/
def structuralTokens : List String :=
  ["\x7b", "\x7d", "(", ")", "[", "]", ";", ",", ".", "<", ">", "=", "/", "[]", "*", "||"]

/-- What may follow a cursor. -/
structure CompletionContext where
  keywords : List String
  operators : List String
  /-- The admitted symbols. -/
  scope : Option CompletionScope
  /-- Set where a new name is being typed. -/
  isDefinitionName : Bool
  /-- Set in comments. -/
  isComment : Bool
  /-- The part of the word at the cursor that was typed. -/
  typed : String
  /-- The class around the cursor. -/
  enclosingClass : Option String
  /-- The outermost state machine around the cursor. -/
  enclosingStateMachine : Option String
deriving DecidableEq, Repr, Inhabited

/-- The context in which nothing may follow. -/
def CompletionContext.nothing : CompletionContext :=
  ⟨[], [], none, false, false, "", none, none⟩

namespace CompletionContext

/-- Holds of the characters of identifiers. -/
def isIdentifierChar (char : Char) : Bool :=
  char.isAlphanum || char = '_'

/-- Holds of the characters of keywords. -/
def isWordChar (char : Char) : Bool :=
  char.isAlpha || char = '_'

/-- The text before the partial word at an offset and before the blanks ahead of it, last character
first. -/
def beforeWord (content : List Char) (offset : Nat) : List Char :=
  ((content.take offset).reverse.dropWhile isIdentifierChar).dropWhile Text.isBlank

/-- The complete word before the one at a position; punctuation there is none. -/
def wordBefore? (content : String) (line column : Nat) : Option String :=
  let text := content.toList
  let word := (beforeWord text (Text.lineOffset (Text.lines text) line column)).takeWhile isWordChar
  if word.isEmpty then none else some (String.ofList word.reverse)

/-- The nearest place before a place that does not lie above it. -/
def placeBefore? (place : Place) : Option Place :=
  place.selfAndAbove.findSome? (·.previousSibling?)

/-- The last leaf at or before a place that is not extra; the fuel bounds the count of extra
ones. -/
def skipExtras : Nat → Place → Option Place
  | 0, _ => none
  | fuel + 1, place =>
    if place.info.isExtra then
      match placeBefore? place with
      | none => none
      | some before => skipExtras fuel before.lastLeaf
    else some place.lastLeaf

/-- The last leaf before the word at a position that is not extra. -/
def previousLeaf? (root : Node) (content : String) (line column : Nat) : Option Place :=
  let text := content.toList
  let before := beforeWord text (Text.lineOffset (Text.lines text) line column)
  if before.isEmpty then none
  else skipExtras (root.size + 1) (root.atByte (Text.byteOffset text (before.length - 1)))

/-- Holds if a leaf belongs to the declared type of an attribute or of a method. -/
def endsDeclaredType (leaf : Place) : Bool :=
  match leaf.selfAndAbove.find? (·.kind = "type_name") with
  | some name => name.fieldInParent? = some "type" || name.fieldInParent? = some "return_type"
  | none => false

/-- Holds of the operators of associations and transitions. -/
def isOperator (name : String) : Bool :=
  match name.toList with
  | first :: _ :: _ => first = '<' || first = '>' || first = '-'
  | _ => false

/-- Holds of the keywords. -/
def isKeyword (name : String) : Bool :=
  match name.toList with
  | first :: _ => first.isAlpha
  | [] => false

/-- The elements of a list without those that occurred before. -/
def withoutRepeats (names : List String) : List String :=
  names.foldl (fun kept name => if kept.contains name then kept else kept ++ [name]) []

/-- The keywords and the operators among the symbols that may follow. -/
def partitionNext (symbols : List NextSymbol) : List String × List String :=
  let offered := (symbols.filter fun symbol =>
    !symbol.isNamed && !structuralTokens.contains symbol.name).map (·.name)
  (withoutRepeats (offered.filter fun name => !isOperator name && isKeyword name),
    withoutRepeats (offered.filter isOperator))

/-- The typed part of the word at a place, for a cursor in the given line. -/
def typedPart (place : Place) (line byteColumn : Nat) : String :=
  if !place.isWord || byteColumn = 0 then ""
  else
    let start := if place.info.startPoint.row = line then place.info.startPoint.column else 0
    String.ofList <| Text.decodeDropping ((place.info.bytes.getD []).take (byteColumn - start))

/-- The completion context at a position of a document with the given tree. -/
def atPosition (grammar : Grammar) (root : Node) (content : String) (line column : Nat) :
    CompletionContext :=
  let lineText := Text.lineAt content.toList line
  let byteColumn := Text.byteColumn lineText column
  let before := root.atPoint ⟨line, Text.byteColumn lineText (column - 1)⟩
  if before.isInComment then { nothing with isComment := true }
  else
    let previous := previousLeaf? root content line column
    let afterKeyword :=
      match wordBefore? content line column with
      | some word => definitionKeywords.contains word
      | none => false
    if afterKeyword || previous.any endsDeclaredType then
      { nothing with isDefinitionName := true }
    else
      let state :=
        match previous with
        | some leaf => leaf.info.nextState
        | none => before.info.state
      let (keywords, operators) := partitionNext (grammar.nextSymbols state)
      let point : Text.Point := ⟨line, byteColumn⟩
      let cursor := root.atPoint point
      { keywords
        operators
        scope := CompletionScope.atPoint? grammar root point
        isDefinitionName := false
        isComment := false
        typed := typedPart before line byteColumn
        enclosingClass := cursor.enclosingClass?
        enclosingStateMachine := cursor.rootStateMachine? }

end CompletionContext

end ModelAssist
