import ModelAssist.Data.Yaml.Token

/-!
# Nodes of YAML

The tree that the tokens of a document write.  Aliases stand for the nodes of their anchors; what
the nodes stand for is not looked at here.
-/

namespace ModelAssist.Yaml

/-- A node, with its tag if it has one. -/
inductive Node where
  /-- A scalar, and whether it is written without quotation marks. -/
  | scalar (tag : Option String) (content : String) (isPlain : Bool)
  | sequence (tag : Option String) (elements : List Node)
  | mapping (tag : Option String) (entries : List (Node × Node))
deriving Inhabited

/-- The node where nothing is written. -/
def Node.nothing (tag : Option String) : Node := .scalar tag "" true

/-- What is left to read, and the nodes of the anchors so far. -/
structure ReadState where
  tokens : List Token
  anchors : List (String × Node)
deriving Inhabited

namespace ReadState

/-- The next token. -/
def next? (state : ReadState) : Option Token := state.tokens.head?

/-- The state after one more token. -/
def advance (state : ReadState) : ReadState := { state with tokens := state.tokens.tail }

/-- Holds if the next token is one of the given ones. -/
def isAt (state : ReadState) (tokens : List Token) : Bool :=
  match state.next? with
  | some token => tokens.contains token
  | none => true

end ReadState

/-- What the tags of the basic kinds start with. -/
def tagStart : String := "tag:yaml.org,2002:"

/-- The tag that a tag stands for as it is written; `none` if its handle is not known. -/
def fullTag? (written : String) : Option String :=
  match written.toList with
  | '!' :: '!' :: rest => some (tagStart ++ String.ofList rest)
  | '!' :: '<' :: rest => some (String.ofList rest.dropLast)
  | '!' :: rest => if rest.contains '!' then none else some written
  | _ => none

/-- The state after the anchor and the tag of a node, and these. -/
def readProperties (state : ReadState) : ReadState × Option String × Option String :=
  match state.tokens with
  | .anchor name :: .tag tag :: rest => ({ state with tokens := rest }, some name, some tag)
  | .tag tag :: .anchor name :: rest => ({ state with tokens := rest }, some name, some tag)
  | .anchor name :: rest => ({ state with tokens := rest }, some name, none)
  | .tag tag :: rest => ({ state with tokens := rest }, none, some tag)
  | _ => (state, none, none)

/-- The state after a node with its properties was read. -/
def remember (anchor tag : Option String) (node : Node) (state : ReadState) :
    Option (Node × ReadState) :=
  if tag.any fun tag => (fullTag? tag).isNone then none
  else
    match anchor with
    | none => some (node, state)
    | some name =>
      if state.anchors.any (·.1 = name) then none
      else some (node, { state with anchors := (name, node) :: state.anchors })

mutual

/-- The next node; the fuel bounds the count of nodes and marks.  In a block, nodes may be block
collections, and after a key a sequence may stand at the indentation of the key. -/
def readNode (inBlock indentless : Bool) : Nat → ReadState → Option (Node × ReadState)
  | 0, _ => none
  | fuel + 1, state => do
    match state.next? with
    | some (.alias name) =>
      let (_, node) ← state.anchors.find? (·.1 = name)
      some (node, state.advance)
    | _ =>
      let (state, anchor, tag) := readProperties state
      let (node, state) ←
        match state.next? with
        | some (.scalar content isPlain) => some (Node.scalar tag content isPlain, state.advance)
        | some .flowSequence => do
          let (elements, state) ← readFlowSequence true fuel state.advance
          some (Node.sequence tag elements, state)
        | some .flowMapping => do
          let (entries, state) ← readFlowMapping true fuel state.advance
          some (Node.mapping tag entries, state)
        | some .blockSequence =>
          if !inBlock then none
          else do
            let (elements, state) ← readSequence false fuel state.advance
            some (Node.sequence tag elements, state)
        | some .blockMapping =>
          if !inBlock then none
          else do
            let (entries, state) ← readMapping fuel state.advance
            some (Node.mapping tag entries, state)
        | some .blockEntry =>
          if indentless then do
            let (elements, state) ← readSequence true fuel state
            some (Node.sequence tag elements, state)
          else if anchor.isSome || tag.isSome then some (Node.nothing tag, state)
          else none
        | _ => if anchor.isSome || tag.isSome then some (Node.nothing tag, state) else none
      remember anchor tag node state

/-- The elements of the rest of a block sequence; one without indentation has no closing token. -/
def readSequence (indentless : Bool) : Nat → ReadState → Option (List Node × ReadState)
  | 0, _ => none
  | fuel + 1, state => do
    match state.next? with
    | some .blockEntry =>
      let state := state.advance
      let ends : List Token :=
        if indentless then [.blockEntry, .key, .value, .blockEnd] else [.blockEntry, .blockEnd]
      let (node, state) ←
        if state.isAt ends then some (Node.nothing none, state)
        else readNode true false fuel state
      let (nodes, state) ← readSequence indentless fuel state
      some (node :: nodes, state)
    | some .blockEnd => some ([], if indentless then state else state.advance)
    | _ => if indentless then some ([], state) else none

/-- The entries of the rest of a block mapping. -/
def readMapping : Nat → ReadState → Option (List (Node × Node) × ReadState)
  | 0, _ => none
  | fuel + 1, state => do
    match state.next? with
    | some .key =>
      let (key, state) ← readOrNothing [.key, .value, .blockEnd] true fuel state.advance
      let (value, state) ←
        match state.next? with
        | some .value => readOrNothing [.key, .value, .blockEnd] true fuel state.advance
        | _ => some (Node.nothing none, state)
      let (entries, state) ← readMapping fuel state
      some ((key, value) :: entries, state)
    | some .blockEnd => some ([], state.advance)
    | _ => none

/-- The next node, or nothing if one of the given tokens follows. -/
def readOrNothing (ends : List Token) (inBlock : Bool) :
    Nat → ReadState → Option (Node × ReadState)
  | 0, _ => none
  | fuel + 1, state =>
    if state.isAt ends then some (Node.nothing none, state)
    else readNode inBlock inBlock fuel state

/-- The elements of the rest of a sequence in brackets. -/
def readFlowSequence (isFirst : Bool) : Nat → ReadState → Option (List Node × ReadState)
  | 0, _ => none
  | fuel + 1, state => do
    if state.next? = some .flowSequenceEnd then some ([], state.advance)
    else
      let state ←
        if isFirst then some state
        else if state.next? = some .flowEntry then some state.advance
        else none
      match state.next? with
      | some .flowSequenceEnd => some ([], state.advance)
      | some .key =>
        let (key, state) ←
          readOrNothing [.value, .flowEntry, .flowSequenceEnd] false fuel state.advance
        let (value, state) ← readFlowValue [.flowEntry, .flowSequenceEnd] fuel state
        let (nodes, state) ← readFlowSequence false fuel state
        some (Node.mapping none [(key, value)] :: nodes, state)
      | _ =>
        let (node, state) ← readNode false false fuel state
        let (nodes, state) ← readFlowSequence false fuel state
        some (node :: nodes, state)

/-- The entries of the rest of a mapping in braces. -/
def readFlowMapping (isFirst : Bool) : Nat → ReadState → Option (List (Node × Node) × ReadState)
  | 0, _ => none
  | fuel + 1, state => do
    if state.next? = some .flowMappingEnd then some ([], state.advance)
    else
      let state ←
        if isFirst then some state
        else if state.next? = some .flowEntry then some state.advance
        else none
      match state.next? with
      | some .flowMappingEnd => some ([], state.advance)
      | some .key =>
        let (key, state) ←
          readOrNothing [.value, .flowEntry, .flowMappingEnd] false fuel state.advance
        let (value, state) ← readFlowValue [.flowEntry, .flowMappingEnd] fuel state
        let (entries, state) ← readFlowMapping false fuel state
        some ((key, value) :: entries, state)
      | _ =>
        let (key, state) ← readNode false false fuel state
        let (entries, state) ← readFlowMapping false fuel state
        some ((key, Node.nothing none) :: entries, state)

/-- The value behind a key in brackets or braces, which is nothing if it is not given. -/
def readFlowValue (ends : List Token) : Nat → ReadState → Option (Node × ReadState)
  | 0, _ => none
  | fuel + 1, state =>
    match state.next? with
    | some .value => readOrNothing ends false fuel state.advance
    | _ => some (Node.nothing none, state)

end

/-- The only document of some tokens; no document is nothing. -/
def readDocument (tokens : List Token) : Option Node :=
  let isEnd (token : Token) : Bool := token = .documentEnd
  let directives := tokens.takeWhile (· = .directive)
  let rest := tokens.drop directives.length
  match rest with
  | [] => if directives.isEmpty then some (.nothing none) else none
  | .documentStart :: rest =>
    if (ReadState.mk rest []).isAt [.directive, .documentStart, .documentEnd] then
      if rest.dropWhile isEnd = [] then some (.nothing none) else none
    else content rest
  | rest =>
    if !directives.isEmpty then none
    else if rest.dropWhile isEnd = [] then some (.nothing none)
    else content rest
where
  /-- The root of a document that does not start with its end. -/
  content (tokens : List Token) : Option Node := do
    let (node, state) ← readNode true false (3 * tokens.length + 3) ⟨tokens, []⟩
    if (state.tokens.dropWhile (· = .documentEnd)).isEmpty then some node else none

end ModelAssist.Yaml
