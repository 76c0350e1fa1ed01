import ModelAssist.Path.Basic
import ModelAssist.Text.Quoted

/-!
# File URIs

The `file:` URIs by which editors name documents, and the paths that they stand for.
-/

namespace ModelAssist.Uri

/-- The value of a hexadecimal digit. -/
def hexValue? (char : Char) : Option Nat :=
  if '0' ≤ char ∧ char ≤ '9' then some (char.toNat - 48)
  else if 'a' ≤ char ∧ char ≤ 'f' then some (char.toNat - 87)
  else if 'A' ≤ char ∧ char ≤ 'F' then some (char.toNat - 55)
  else none

/-- A text whose percent escapes are resolved.  `pending` holds the bytes of the run of ASCII
characters that is being read, last one first; each such run is decoded by itself. -/
def unescapeFrom (pending : List UInt8) : List Char → List Char
  | [] => Text.decodeMarking pending.reverse
  | '%' :: high :: low :: rest =>
    match hexValue? high, hexValue? low with
    | some highValue, some lowValue =>
      unescapeFrom (UInt8.ofNat (highValue * 16 + lowValue) :: pending) rest
    | _, _ => unescapeFrom (37 :: pending) (high :: low :: rest)
  | char :: rest =>
    if char.toNat < 128 then unescapeFrom (UInt8.ofNat char.toNat :: pending) rest
    else Text.decodeMarking pending.reverse ++ char :: unescapeFrom [] rest
  termination_by text => text.length

/-- A text whose percent escapes are resolved. -/
def unescape (text : List Char) : List Char :=
  unescapeFrom [] text

/-- Holds of the characters that a path keeps in a URI. -/
def isPlain (char : Char) : Bool :=
  char.isAlphanum || char = '_' || char = '.' || char = '-' || char = '~' || char = '/'

/-- The escape of a byte. -/
def escapeByte (byte : UInt8) : List Char :=
  ['%'] ++ (Text.hexadecimal 2 byte.toNat).map Char.toUpper

/-- A text in which every character that is not plain is escaped byte by byte. -/
def escape (text : List Char) : List Char :=
  text.flatMap fun char =>
    if isPlain char then [char] else (String.utf8EncodeChar char).flatMap escapeByte

/-- Holds if a path starts with the letter of a drive. -/
def startsWithDrive : List Char → Bool
  | '/' :: letter :: ':' :: _ => letter.isAlpha
  | _ => false

/-- The path that a file URI stands for, as written in it. -/
def writtenPath? (uri : String) : Option (List Char) :=
  if !"file:".toList.isPrefixOf uri.toList then none
  else
    let body := (uri.toList.drop 5).filter fun char => char ≠ '\t' && char ≠ '\n' && char ≠ '\r'
    let hasEnd := fun char : Char => char ≠ '/' && char ≠ '?' && char ≠ '#'
    let (authority, rest) :=
      match body with
      | '/' :: '/' :: rest => rest.span hasEnd
      | rest => ([], rest)
    let path := rest.takeWhile fun char => char ≠ '?' && char ≠ '#'
    let authority := unescape authority
    let path := unescape path
    some <|
      if !authority.isEmpty && !path.isEmpty then '/' :: '/' :: authority ++ path
      else
        match path with
        | '/' :: letter :: ':' :: rest =>
          if letter.isAlpha then letter.toLower :: ':' :: rest else path
        | path => path

/-- The normalized path of a file URI; other URIs and URIs without a path have none. -/
def path? [Host] (uri : String) : Option Path :=
  match writtenPath? uri with
  | none => none
  | some [] => none
  | some text => some (Path.normalized (String.ofList text))

/-! ## URIs that cannot be read

What stands between the two slashes and the path of a URI names a host.  A host in brackets has to
be an address, and no character may stand for one that ends hosts.
-/

/-- Why a URI cannot be read. -/
inductive Refusal where
  /-- A bracket has no counterpart. -/
  | bracket
  /-- What stands in brackets is no address. -/
  | address (host : String)
  /-- What stands in brackets is an address of the old form. -/
  | oldAddress
  /-- What stands in brackets begins like an address of a form to come, but is none. -/
  | futureAddress
  /-- A character stands for one that ends hosts. -/
  | compatible (authority : String)
deriving DecidableEq, Repr

/-- What is said about a URI that cannot be read. -/
def Refusal.message : Refusal → String
  | .bracket => "Invalid IPv6 URL"
  | .address host => Text.quoted host ++ " does not appear to be an IPv4 or IPv6 address"
  | .oldAddress => "An IPv4 address cannot be in brackets"
  | .futureAddress => "IPvFuture address is invalid"
  | .compatible authority =>
    "netloc '" ++ authority ++ "' contains invalid characters under NFKC normalization"

/-- The rest of a URI behind its scheme. -/
def afterScheme (text : List Char) : List Char :=
  let inScheme := fun char : Char => char.isAlphanum || char = '+' || char = '-' || char = '.'
  match text.span (· ≠ ':') with
  | (first :: scheme, _ :: rest) =>
    if first.isAlpha && scheme.all inScheme then rest else text
  | _ => text

/-- What stands between the two slashes and the path of a URI. -/
def authority (uri : String) : List Char :=
  let text := (uri.toList.dropWhile (·.toNat ≤ 32)).filter fun char =>
    char ≠ '\t' && char ≠ '\n' && char ≠ '\r'
  match afterScheme text with
  | '/' :: '/' :: rest => rest.takeWhile fun char => char ≠ '/' && char ≠ '?' && char ≠ '#'
  | _ => []

/-- The parts of a text between the places where a character stands. -/
def partsAt (stop : Char) (text : List Char) : List (List Char) :=
  text.foldr
    (fun char parts =>
      if char = stop then [] :: parts
      else match parts with
        | first :: rest => (char :: first) :: rest
        | [] => [[char]])
    [[]]

/-- Holds of the decimal numerals of one byte without needless zeros. -/
def isByte (text : List Char) : Bool :=
  text.all Char.isDigit && 0 < text.length && text.length ≤ 3 &&
    (text.length = 1 || text.head? ≠ some '0') &&
    text.foldl (fun value char => value * 10 + (char.toNat - 48)) 0 ≤ 255

/-- Holds of the addresses of the old form: four bytes with dots between them. -/
def isOldAddress (text : List Char) : Bool :=
  let parts := partsAt '.' text
  parts.length = 4 && parts.all isByte

/-- Holds of the hexadecimal numerals of one group of an address. -/
def isGroup (text : List Char) : Bool :=
  0 < text.length && text.length ≤ 4 && text.all fun char => (hexValue? char).isSome

/-- The count of groups that parts of an address write; the last part may be an address of the old
form, which counts as two. -/
def groupCount? : List (List Char) → Option Nat
  | [] => some 0
  | [part] => if isGroup part then some 1 else if isOldAddress part then some 2 else none
  | part :: rest => if isGroup part then (groupCount? rest).map (· + 1) else none

/-- What stands before and behind the first two colons that follow each other. -/
def splitAtGap : List Char → Option (List Char × List Char)
  | ':' :: ':' :: rest => some ([], rest)
  | char :: rest => (splitAtGap rest).map fun (before, behind) => (char :: before, behind)
  | [] => none

/-- The parts between the colons of a part of an address; of an empty one there are none. -/
def groupsOf (text : List Char) : List (List Char) :=
  if text.isEmpty then [] else partsAt ':' text

/-- Holds of eight groups with colons between them, or of fewer ones with a gap for those that are
left out. -/
def isGrouped (text : List Char) : Bool :=
  match splitAtGap text with
  | some (before, behind) =>
    (groupsOf before).all isGroup &&
      (groupCount? (groupsOf behind)).any fun count => (groupsOf before).length + count ≤ 7
  | none => groupCount? (groupsOf text) = some 8

/-- Holds of the addresses that may stand in brackets; a zone may follow. -/
def isAddress (text : List Char) : Bool :=
  let (groups, zone) := text.span (· ≠ '%')
  isGrouped groups && match zone with
    | [] => true
    | _ :: name => !name.isEmpty && !name.contains '%'

/-- Holds of the addresses of forms to come: a version and a name with a dot between them. -/
def isFutureAddress (text : List Char) : Bool :=
  match (text.drop 1).span (· ≠ '.') with
  | (version, _ :: name) =>
    !version.isEmpty && version.all (fun char => (hexValue? char).isSome) && !name.isEmpty
  | _ => false

/-- Why a host in brackets is refused, if it is. -/
def hostRefusal? (host : List Char) : Option Refusal :=
  if host.head? = some 'v' then if isFutureAddress host then none else some .futureAddress
  else if isAddress host then none
  else if isOldAddress host then some .oldAddress
  else some (.address (String.ofList host))

/-- The characters whose compatible forms hold a character that ends hosts. -/
def compatibleEnds : List Char :=
  ['⁇', '⁈', '⁉', '℀', '℁', '℅', '℆', '⩴', '︓', '︖', '﹕', '﹖', '﹟', '﹫', '＃', '／', '：', '？', '＠']

/-- Why a URI cannot be read, if it cannot. -/
def refusal? (uri : String) : Option Refusal :=
  let authority := authority uri
  let compatible :=
    if authority.any compatibleEnds.contains then some (.compatible (String.ofList authority))
    else none
  if authority.contains '[' ≠ authority.contains ']' then some .bracket
  else if authority.contains '[' then
    (hostRefusal? (((authority.dropWhile (· ≠ '[')).drop 1).takeWhile (· ≠ ']'))).or compatible
  else compatible

/-- The path that a file URI stands for, or why the URI cannot be read. -/
def read [Host] (uri : String) : Except Refusal (Option Path) :=
  if !"file:".toList.isPrefixOf uri.toList then .ok none
  else
    match refusal? uri with
    | some refusal => .error refusal
    | none => .ok (path? uri)

/-! ## URIs of paths -/

/-- Why a path has no URI. -/
inductive Fault where
  /-- Two leading slashes are not followed by another one. -/
  | authorityNotClosed
deriving DecidableEq, Repr

/-- What is said about a path without a URI. -/
def Fault.message : Fault → String
  | .authorityNotClosed => "substring not found"

/-- The file URI of a path. -/
def ofPath (path : String) : Except Fault String := do
  let (authority, path) ←
    match path.toList with
    | '/' :: '/' :: rest =>
      if rest.contains '/' then
        Except.ok (rest.takeWhile (· ≠ '/'), rest.dropWhile (· ≠ '/'))
      else .error .authorityNotClosed
    | path => .ok ([], path)
  let path := if path.head? = some '/' then path else '/' :: path
  let escaped :=
    match path with
    | '/' :: letter :: ':' :: rest =>
      if letter.isAlpha then '/' :: letter.toLower :: ':' :: escape rest else escape path
    | path => escape path
  .ok ("file://" ++ String.ofList (escape authority ++ escaped))

end ModelAssist.Uri
