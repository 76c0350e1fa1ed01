/-!
# Tokens of YAML

The tokens of a configuration document.  Indentation becomes tokens that open and close block
collections.  Whether a scalar is a key shows only at the colon behind it, so every place where a
key may start is remembered until then, and the tokens for the key are put in afterwards.
-/

namespace ModelAssist.Yaml

/-- A token. -/
inductive Token where
  | directive
  /-- The mark that opens a document. -/
  | documentStart
  /-- The mark that closes a document. -/
  | documentEnd
  | blockSequence
  | blockMapping
  /-- A block collection closes. -/
  | blockEnd
  /-- An opening bracket. -/
  | flowSequence
  /-- A closing bracket. -/
  | flowSequenceEnd
  /-- An opening brace. -/
  | flowMapping
  /-- A closing brace. -/
  | flowMappingEnd
  /-- The dash of an element. -/
  | blockEntry
  | flowEntry
  | key
  /-- The colon before a value. -/
  | value
  /-- A reference to an anchor. -/
  | alias (name : String)
  | anchor (name : String)
  | tag (name : String)
  /-- A scalar, and whether it is written without quotation marks. -/
  | scalar (content : String) (isPlain : Bool)
deriving DecidableEq, Repr, Inhabited

/-- A place where a key may have started. -/
structure KeyPlace where
  /-- How many tokens there were before it. -/
  tokens : Nat
  /-- Set if nothing but a key can stand there. -/
  isRequired : Bool
  /-- The count of characters before it. -/
  index : Nat
  line : Nat
  column : Nat
deriving DecidableEq, Repr, Inhabited

/-- How far a text has been scanned. -/
structure Scanner where
  rest : List Char
  /-- The count of characters before the rest. -/
  index : Nat
  line : Nat
  column : Nat
  /-- The columns of the open block collections, innermost first. -/
  indents : List Nat
  /-- The count of open brackets and braces. -/
  depth : Nat
  /-- Set where a key may start. -/
  mayStartKey : Bool
  /-- The possible key of every depth. -/
  keys : List (Nat × KeyPlace)
  tokens : Array Token
deriving Inhabited

/-- Holds of the characters that break lines. -/
def isBreak (char : Char) : Bool :=
  char = '\n' || char = '\r' || char = '\u0085' || char = '\u2028' || char = '\u2029'

/-- Holds of the characters that separate tokens. -/
def isGap (char : Char) : Bool :=
  char = ' ' || char = '\t' || isBreak char

/-- Holds of the characters that a document may contain. -/
def isAllowed (char : Char) : Bool :=
  let code := char.toNat
  code = 0x09 || code = 0x0A || code = 0x0D || (0x20 ≤ code && code ≤ 0x7E) || code = 0x85 ||
    (0xA0 ≤ code && code ≤ 0xFFFD) || 0x10000 ≤ code

/-- Holds at the end of a text and before a character that separates tokens. -/
def startsWithGap : List Char → Bool
  | [] => true
  | char :: _ => isGap char

/-- The value of a hexadecimal digit. -/
def hexDigitValue? (char : Char) : Option Nat :=
  if '0' ≤ char ∧ char ≤ '9' then some (char.toNat - 48)
  else if 'a' ≤ char ∧ char ≤ 'f' then some (char.toNat - 87)
  else if 'A' ≤ char ∧ char ≤ 'F' then some (char.toNat - 55)
  else none

namespace Scanner

/-- A scanner at the start of a text. -/
def start (text : List Char) : Scanner :=
  ⟨text, 0, 0, 0, [], 0, true, [], #[]⟩

/-- The column of the innermost open block collection, or one before the first column. -/
def indent (scanner : Scanner) : Int :=
  match scanner.indents with
  | column :: _ => column
  | [] => -1

/-- The scanner after one more character. -/
def advance (scanner : Scanner) : Scanner :=
  match scanner.rest with
  | [] => scanner
  | char :: rest =>
    let breaks := isBreak char && !(char = '\r' && rest.head? = some '\n')
    { scanner with
      rest
      index := scanner.index + 1
      line := if breaks then scanner.line + 1 else scanner.line
      column :=
        if breaks then 0 else if char = '\uFEFF' then scanner.column else scanner.column + 1 }

/-- The scanner after some more characters. -/
def advanceBy (scanner : Scanner) : Nat → Scanner
  | 0 => scanner
  | count + 1 => scanner.advance.advanceBy count

/-- The scanner after the characters at the front that meet a condition. -/
def skipWhile (holds : Char → Bool) (scanner : Scanner) : Scanner :=
  scanner.advanceBy (scanner.rest.takeWhile holds).length

/-- The scanner after a line break, and how the break counts; other characters stay. -/
def takeBreak (scanner : Scanner) : Scanner × List Char :=
  match scanner.rest with
  | '\r' :: '\n' :: _ => (scanner.advanceBy 2, ['\n'])
  | char :: _ =>
    if char = '\u2028' || char = '\u2029' then (scanner.advance, [char])
    else if isBreak char then (scanner.advance, ['\n'])
    else (scanner, [])
  | [] => (scanner, [])

/-- The scanner with one more token. -/
def push (scanner : Scanner) (token : Token) : Scanner :=
  { scanner with tokens := scanner.tokens.push token }

/-- The scanner after blanks, comments and line breaks; a line break outside brackets makes room for
a key. -/
def toNextToken : Nat → Scanner → Scanner
  | 0, scanner => scanner
  | fuel + 1, scanner =>
    let scanner := scanner.skipWhile (· = ' ')
    let scanner :=
      if scanner.rest.head? = some '#' then scanner.skipWhile (!isBreak ·) else scanner
    match scanner.takeBreak with
    | (_, []) => scanner
    | (after, _) =>
      toNextToken fuel (if after.depth = 0 then { after with mayStartKey := true } else after)

/-- The longest distance between a key and its colon. -/
def keyLimit : Nat := 1024

/-- Holds of the keys that can no longer be completed. -/
def isStale (scanner : Scanner) (key : KeyPlace) : Bool :=
  key.line ≠ scanner.line || keyLimit < scanner.index - key.index

/-- The scanner without the keys that can no longer be completed; `none` if one was required. -/
def dropStaleKeys (scanner : Scanner) : Option Scanner :=
  if scanner.keys.any fun (_, key) => isStale scanner key && key.isRequired then none
  else some { scanner with keys := scanner.keys.filter fun (_, key) => !isStale scanner key }

/-- The possible key of the current depth. -/
def currentKey? (scanner : Scanner) : Option KeyPlace :=
  (scanner.keys.find? (·.1 = scanner.depth)).map (·.2)

/-- The scanner without the possible key of the current depth; `none` if it was required. -/
def dropKey (scanner : Scanner) : Option Scanner :=
  if scanner.currentKey?.any (·.isRequired) then none
  else some { scanner with keys := scanner.keys.filter (·.1 ≠ scanner.depth) }

/-- The scanner after a place was remembered where a key may start. -/
def rememberKey (scanner : Scanner) : Option Scanner :=
  if scanner.mayStartKey then do
    let isRequired := scanner.depth = 0 && scanner.indent = scanner.column
    let after ← scanner.dropKey
    let place : KeyPlace :=
      ⟨after.tokens.size, isRequired, after.index, after.line, after.column⟩
    some { after with keys := (after.depth, place) :: after.keys }
  else some scanner

/-- The scanner after the block collections that are indented more than a column were closed. -/
def closeBlocks (column : Int) (scanner : Scanner) : Scanner :=
  if scanner.depth ≠ 0 then scanner
  else
    let closed := (scanner.indents.takeWhile fun (indent : Nat) => column < (indent : Int)).length
    { scanner with
      indents := scanner.indents.drop closed
      tokens := scanner.tokens ++ Array.replicate closed .blockEnd }

/-- The scanner after a column became the innermost indentation, if it was not, and whether it
did. -/
def openBlock (scanner : Scanner) (column : Nat) : Scanner × Bool :=
  if scanner.indent < column then
    ({ scanner with indents := column :: scanner.indents }, true)
  else (scanner, false)

/-- Holds at a mark of three given characters in the first column. -/
def isAtMark (scanner : Scanner) (mark : Char) : Bool :=
  scanner.column = 0 && [mark, mark, mark].isPrefixOf scanner.rest &&
    startsWithGap (scanner.rest.drop 3)

/-- Holds at a mark that opens or closes a document, wherever it stands. -/
def isAtSeparator (scanner : Scanner) : Bool :=
  (['-', '-', '-'].isPrefixOf scanner.rest || ['.', '.', '.'].isPrefixOf scanner.rest) &&
    startsWithGap (scanner.rest.drop 3)

/-- The scanner after a mark or a directive at the level of documents. -/
def takeDocumentToken (scanner : Scanner) (token : Token) : Option Scanner := do
  let scanner ← (scanner.closeBlocks (-1)).dropKey
  let scanner := { scanner with mayStartKey := false }
  match token with
  | .directive => some ((scanner.skipWhile (!isBreak ·)).push token)
  | _ => some ((scanner.advanceBy 3).push token)

/-- The scanner after an opening bracket or brace. -/
def takeOpening (scanner : Scanner) (token : Token) : Option Scanner := do
  let scanner ← scanner.rememberKey
  some { scanner.advance.push token with depth := scanner.depth + 1, mayStartKey := true }

/-- The scanner after a closing bracket or brace. -/
def takeClosing (scanner : Scanner) (token : Token) : Option Scanner := do
  let scanner ← scanner.dropKey
  if scanner.depth = 0 then none
  else some { scanner.advance.push token with depth := scanner.depth - 1, mayStartKey := false }

/-- The scanner after a comma. -/
def takeComma (scanner : Scanner) : Option Scanner := do
  let scanner ← { scanner with mayStartKey := true }.dropKey
  some (scanner.advance.push .flowEntry)

/-- The scanner after the mark of an element or of a key, which may open a block collection. -/
def takeMark (scanner : Scanner) (block token : Token) (keyAfter : Bool) : Option Scanner := do
  let scanner ←
    if scanner.depth = 0 then
      if !scanner.mayStartKey then none
      else
        let (scanner, opened) := scanner.openBlock scanner.column
        some (if opened then scanner.push block else scanner)
    else some scanner
  let scanner ← { scanner with mayStartKey := keyAfter }.dropKey
  some (scanner.advance.push token)

/-- The tokens with some more of them put in after the first ones. -/
def insertTokens (tokens : Array Token) (count : Nat) (more : List Token) : Array Token :=
  (tokens.toList.take count ++ more ++ tokens.toList.drop count).toArray

/-- The scanner after the colon before a value. -/
def takeColon (scanner : Scanner) : Option Scanner := do
  let scanner ←
    match scanner.currentKey? with
    | some key =>
      let scanner := { scanner with keys := scanner.keys.filter (·.1 ≠ scanner.depth) }
      let (scanner, opened) :=
        if scanner.depth = 0 then scanner.openBlock key.column else (scanner, false)
      some { scanner with
        mayStartKey := false
        tokens := insertTokens scanner.tokens key.tokens
          (if opened then [.blockMapping, .key] else [.key]) }
    | none =>
      if scanner.depth = 0 then
        if !scanner.mayStartKey then none
        else
          let (scanner, opened) := scanner.openBlock scanner.column
          let scanner := if opened then scanner.push .blockMapping else scanner
          dropKey { scanner with mayStartKey := true }
      else dropKey { scanner with mayStartKey := false }
  some (scanner.advance.push .value)

/-- Holds of the characters of the names of anchors. -/
def isOfName (char : Char) : Bool :=
  char.isAlphanum || char = '-' || char = '_'

/-- The scanner after an anchor or a reference to one. -/
def takeName (scanner : Scanner) (token : String → Token) : Option Scanner := do
  let scanner ← scanner.rememberKey
  let scanner := { scanner with mayStartKey := false }.advance
  let name := scanner.rest.takeWhile isOfName
  let scanner := scanner.skipWhile isOfName
  let endsWell :=
    match scanner.rest with
    | [] => true
    | char :: _ => isGap char || "?:,]\x7d%@`".toList.contains char
  if name.isEmpty || !endsWell then none else some (scanner.push (token (String.ofList name)))

/-- The scanner after a tag. -/
def takeTag (scanner : Scanner) : Option Scanner := do
  let scanner ← scanner.rememberKey
  let scanner := { scanner with mayStartKey := false }
  let name := scanner.rest.takeWhile fun char =>
    !isGap char && !(0 < scanner.depth && ",[]\x7b\x7d".toList.contains char)
  let scanner := scanner.advanceBy name.length
  if startsWithGap scanner.rest then some (scanner.push (.tag (String.ofList name))) else none

/-- The blanks and line breaks behind a part of a plain scalar as they count in it, and the scanner
after them. -/
def plainGap (scanner : Scanner) : Scanner × List Char :=
  let blanks := scanner.rest.takeWhile (· = ' ')
  let scanner := scanner.advanceBy blanks.length
  match scanner.takeBreak with
  | (_, []) => (scanner, blanks)
  | (after, first) =>
    let after := { after with mayStartKey := true }
    if after.isAtSeparator then (after, [])
    else
      match breaks after.rest.length after [] with
      | none => (after, [])
      | some (scanner, more) =>
        (scanner, (if first ≠ ['\n'] then first else if more.isEmpty then [' '] else []) ++ more)
where
  /-- The line breaks among blanks and line breaks, unless a document ends there. -/
  breaks : Nat → Scanner → List Char → Option (Scanner × List Char)
    | 0, scanner, found => some (scanner, found)
    | fuel + 1, scanner, found =>
      match scanner.rest with
      | [] => some (scanner, found)
      | char :: _ =>
        if char = ' ' then breaks fuel scanner.advance found
        else if isBreak char then
          let (after, more) := scanner.takeBreak
          if after.isAtSeparator then none else breaks fuel after (found ++ more)
        else some (scanner, found)

/-- The count of characters at the front of a text that a plain scalar goes on for. -/
def plainLength (inFlow : Bool) : List Char → Nat
  | [] => 0
  | char :: rest =>
    let atColon :=
      char = ':' &&
        match rest with
        | [] => true
        | next :: _ => isGap next || (inFlow && ",[]\x7b\x7d".toList.contains next)
    if isGap char || atColon || (inFlow && ",?[]\x7b\x7d".toList.contains char) then 0
    else plainLength inFlow rest + 1

/-- The scanner after the parts of a plain scalar, and its content. -/
def plainParts (indent : Int) : Nat → Scanner → List Char → List Char → Scanner × List Char
  | 0, scanner, _, content => (scanner, content)
  | fuel + 1, scanner, gap, content =>
    let length := plainLength (0 < scanner.depth) scanner.rest
    if scanner.rest.head? = some '#' || length = 0 then (scanner, content)
    else
      let content := content ++ gap ++ scanner.rest.take length
      let scanner := { scanner.advanceBy length with mayStartKey := false }
      let (scanner, gap) := scanner.plainGap
      if gap.isEmpty || scanner.rest.head? = some '#' ||
          (scanner.depth = 0 && scanner.column < indent) then (scanner, content)
      else plainParts indent fuel scanner gap content

/-- The scanner after a plain scalar. -/
def takePlain (scanner : Scanner) : Option Scanner := do
  let scanner ← scanner.rememberKey
  let scanner := { scanner with mayStartKey := false }
  let (scanner, content) :=
    plainParts (scanner.indent + 1) (scanner.rest.length + 1) scanner [] []
  some (scanner.push (.scalar (String.ofList content) true))

/-- The character that a letter after a backslash stands for. -/
def escaped? (letter : Char) : Option Char :=
  ([('0', '\x00'), ('a', '\x07'), ('b', '\x08'), ('t', '\t'), ('\t', '\t'), ('n', '\n'),
    ('v', '\x0B'), ('f', '\x0C'), ('r', '\r'), ('e', '\x1B'), (' ', ' '), ('"', '"'),
    ('\\', '\\'), ('/', '/'), ('N', '\u0085'), ('_', '\u00A0'), ('L', '\u2028'),
    ('P', '\u2029')].find? (·.1 = letter)).map (·.2)

/-- The count of hexadecimal digits after a backslash and a letter. -/
def escapeLength? (letter : Char) : Option Nat :=
  if letter = 'x' then some 2
  else if letter = 'u' then some 4
  else if letter = 'U' then some 8
  else none

/-- The line breaks among blanks and line breaks inside of quotation marks. -/
def quotedBreaks : Nat → Scanner → List Char → Option (Scanner × List Char)
  | 0, scanner, found => some (scanner, found)
  | fuel + 1, scanner, found =>
    if scanner.isAtSeparator then none
    else
      let scanner := scanner.skipWhile fun char => char = ' ' || char = '\t'
      match scanner.takeBreak with
      | (_, []) => some (scanner, found)
      | (after, more) => quotedBreaks fuel after (found ++ more)

/-- The blanks and line breaks at a place inside of quotation marks as they count there. -/
def quotedGap (scanner : Scanner) : Option (Scanner × List Char) :=
  let blanks := scanner.rest.takeWhile fun char => char = ' ' || char = '\t'
  let scanner := scanner.advanceBy blanks.length
  match scanner.takeBreak with
  | (_, []) => if scanner.rest.isEmpty then none else some (scanner, blanks)
  | (after, first) => do
    let (after, more) ← quotedBreaks (after.rest.length + 1) after []
    some (after, (if first ≠ ['\n'] then first else if more.isEmpty then [' '] else []) ++ more)

/-- The scanner after an escape inside of double quotation marks, and what it stands for. -/
def takeEscape (scanner : Scanner) : Option (Scanner × List Char) :=
  match scanner.rest with
  | [] => none
  | letter :: _ =>
    match escaped? letter, escapeLength? letter with
    | some char, _ => some (scanner.advance, [char])
    | none, some length => do
      let digits ← ((scanner.advance.rest.take length).mapM hexDigitValue?)
      if digits.length ≠ length then none
      else
        let code := digits.foldl (fun code digit => code * 16 + digit) 0
        some (scanner.advanceBy (length + 1), [Char.ofNat code])
    | none, none =>
      match scanner.takeBreak with
      | (_, []) => none
      | (after, _) => quotedBreaks (after.rest.length + 1) after []

/-- The scanner after the closing quotation mark, and the content before it. -/
def quotedParts (double : Bool) : Nat → Scanner → List Char → Option (Scanner × List Char)
  | 0, _, _ => none
  | fuel + 1, scanner, content =>
    match scanner.rest with
    | [] => none
    | char :: rest =>
      if isGap char then do
        let (after, gap) ← scanner.quotedGap
        quotedParts double fuel after (content ++ gap)
      else if double && char = '\\' then do
        let (after, more) ← scanner.advance.takeEscape
        quotedParts double fuel after (content ++ more)
      else if !double && char = '\'' && rest.head? = some '\'' then
        quotedParts double fuel (scanner.advanceBy 2) (content ++ ['\''])
      else if char = (if double then '"' else '\'') then some (scanner.advance, content)
      else quotedParts double fuel scanner.advance (content ++ [char])

/-- The scanner after a scalar in quotation marks. -/
def takeQuoted (scanner : Scanner) (double : Bool) : Option Scanner := do
  let scanner ← scanner.rememberKey
  let scanner := { scanner with mayStartKey := false }.advance
  let (scanner, content) ← quotedParts double (scanner.rest.length + 1) scanner []
  some (scanner.push (.scalar (String.ofList content) false))

/-- What becomes of the line breaks at the end of a block scalar. -/
inductive Chomping where
  /-- One stays. -/
  | clip
  /-- None stays. -/
  | strip
  /-- All stay. -/
  | keep
deriving DecidableEq, Repr

/-- The marks at the head of a block scalar: what becomes of its end, and how far it is indented. -/
def blockMarks (scanner : Scanner) : Option (Scanner × Chomping × Option Nat) := do
  let chomping? (char : Char) : Option Chomping :=
    if char = '+' then some .keep else if char = '-' then some .strip else none
  let marks := scanner.rest.takeWhile fun char => char.isDigit || (chomping? char).isSome
  let after := scanner.advanceBy marks.length
  if !startsWithGap after.rest then none
  else
    match marks with
    | [] => some (after, .clip, none)
    | [mark] =>
      match chomping? mark with
      | some chomping => some (after, chomping, none)
      | none => if mark = '0' then none else some (after, .clip, some (mark.toNat - 48))
    | [first, second] =>
      match chomping? first, chomping? second with
      | some chomping, none =>
        if second = '0' then none else some (after, chomping, some (second.toNat - 48))
      | none, some chomping =>
        if first = '0' then none else some (after, chomping, some (first.toNat - 48))
      | _, _ => none
    | _ => none

/-- The scanner after the head of a block scalar. -/
def afterBlockHead (scanner : Scanner) : Option Scanner :=
  let scanner := scanner.skipWhile (· = ' ')
  let scanner := if scanner.rest.head? = some '#' then scanner.skipWhile (!isBreak ·) else scanner
  match scanner.takeBreak with
  | (_, []) => if scanner.rest.isEmpty then some scanner else none
  | (after, _) => some after

/-- The line breaks before the first line of a block scalar, and its largest indentation. -/
def blockIndentation : Nat → Scanner → List Char → Nat → Scanner × List Char × Nat
  | 0, scanner, found, widest => (scanner, found, widest)
  | fuel + 1, scanner, found, widest =>
    match scanner.rest with
    | ' ' :: _ =>
      let scanner := scanner.advance
      blockIndentation fuel scanner found (max widest scanner.column)
    | _ =>
      match scanner.takeBreak with
      | (_, []) => (scanner, found, widest)
      | (after, more) => blockIndentation fuel after (found ++ more) widest

/-- The line breaks up to the next line of a block scalar. -/
def blockBreaks (indent : Nat) : Nat → Scanner → List Char → Scanner × List Char
  | 0, scanner, found => (scanner, found)
  | fuel + 1, scanner, found =>
    let blanks := (scanner.rest.takeWhile (· = ' ')).length
    let scanner := scanner.advanceBy (min blanks (indent - scanner.column))
    match scanner.takeBreak with
    | (_, []) => (scanner, found)
    | (after, more) => blockBreaks indent fuel after (found ++ more)

/-- The lines of a block scalar: its content, the break behind its last line, and those after it. -/
def blockLines (folded : Bool) (indent : Nat) :
    Nat → Scanner → List Char → List Char → List Char → Scanner × List Char × List Char × List Char
  | 0, scanner, content, last, breaks => (scanner, content, last, breaks)
  | fuel + 1, scanner, content, last, breaks =>
    if scanner.column ≠ indent || scanner.rest.isEmpty then (scanner, content, last, breaks)
    else
      let isBlank (scanner : Scanner) : Bool :=
        match scanner.rest with
        | char :: _ => char = ' ' || char = '\t'
        | [] => false
      let line := scanner.rest.takeWhile (!isBreak ·)
      let content := content ++ breaks ++ line
      let (after, last) := (scanner.advanceBy line.length).takeBreak
      let (after, breaks) := blockBreaks indent (after.rest.length + 1) after []
      if after.column = indent && !after.rest.isEmpty then
        let joins := folded && last = ['\n'] && !isBlank scanner && !isBlank after
        let content := content ++ (if !joins then last else if breaks.isEmpty then [' '] else [])
        blockLines folded indent fuel after content last breaks
      else (after, content, last, breaks)

/-- The scanner after a block scalar. -/
def takeBlock (scanner : Scanner) (folded : Bool) : Option Scanner := do
  let scanner ← { scanner with mayStartKey := true }.dropKey
  let (scanner, chomping, increment) ← scanner.advance.blockMarks
  let scanner ← scanner.afterBlockHead
  let least := (max (scanner.indent + 1) 1).toNat
  let fuel := scanner.rest.length + 1
  let (scanner, breaks, indent) :=
    match increment with
    | none =>
      let (scanner, breaks, widest) := blockIndentation fuel scanner [] 0
      (scanner, breaks, max least widest)
    | some increment =>
      let indent := least + increment - 1
      let (scanner, breaks) := blockBreaks indent fuel scanner []
      (scanner, breaks, indent)
  let (scanner, content, last, breaks) := blockLines folded indent fuel scanner [] [] breaks
  let tail :=
    match chomping with
    | .strip => []
    | .clip => last
    | .keep => last ++ breaks
  some (scanner.push (.scalar (String.ofList (content ++ tail)) false))

/-- Holds where a plain scalar may start. -/
def startsPlain (scanner : Scanner) : Bool :=
  match scanner.rest with
  | [] => false
  | char :: rest =>
    !(isGap char || "-?:,[]\x7b\x7d#&*!|>'\"%@`".toList.contains char) ||
      (!startsWithGap rest && (char = '-' || (scanner.depth = 0 && (char = '?' || char = ':'))))

/-- The scanner after the next token, which starts with the given character. -/
def takeToken (scanner : Scanner) (char : Char) : Option Scanner :=
  let gapFollows := startsWithGap scanner.rest.tail
  let inBlock := scanner.depth = 0
  if char = '%' && scanner.column = 0 then scanner.takeDocumentToken .directive
  else if scanner.isAtMark '-' then scanner.takeDocumentToken .documentStart
  else if scanner.isAtMark '.' then scanner.takeDocumentToken .documentEnd
  else if char = '[' then scanner.takeOpening .flowSequence
  else if char = '\x7b' then scanner.takeOpening .flowMapping
  else if char = ']' then scanner.takeClosing .flowSequenceEnd
  else if char = '\x7d' then scanner.takeClosing .flowMappingEnd
  else if char = ',' then scanner.takeComma
  else if char = '-' && gapFollows then scanner.takeMark .blockSequence .blockEntry true
  else if char = '?' && (!inBlock || gapFollows) then
    scanner.takeMark .blockMapping .key inBlock
  else if char = ':' && (!inBlock || gapFollows) then scanner.takeColon
  else if char = '*' then scanner.takeName .alias
  else if char = '&' then scanner.takeName .anchor
  else if char = '!' then scanner.takeTag
  else if char = '|' && inBlock then scanner.takeBlock false
  else if char = '>' && inBlock then scanner.takeBlock true
  else if char = '\'' then scanner.takeQuoted false
  else if char = '"' then scanner.takeQuoted true
  else if scanner.startsPlain then scanner.takePlain
  else none

/-- The scanner after all tokens; the fuel bounds their count. -/
def takeAll : Nat → Scanner → Option Scanner
  | 0, _ => none
  | fuel + 1, scanner => do
    let scanner := toNextToken (scanner.rest.length + 1) scanner
    let scanner ← scanner.dropStaleKeys
    let scanner := scanner.closeBlocks scanner.column
    match scanner.rest with
    | [] => (scanner.closeBlocks (-1)).dropKey
    | char :: _ => takeAll fuel (← scanner.takeToken char)

end Scanner

/-- The tokens of a text, unless it is malformed. -/
def tokens? (text : List Char) : Option (List Token) :=
  if !text.all isAllowed then none
  else
    let text := if text.head? = some '\uFEFF' then text.tail else text
    (Scanner.takeAll (text.length + 2) (Scanner.start text)).map (·.tokens.toList)

end ModelAssist.Yaml
