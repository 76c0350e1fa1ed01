import ModelAssist.Data.Access
import ModelAssist.FileStore
import ModelAssist.Text.CodeRange

/-!
# File stores from other programs

A store that is handed over as a record of paths, and what lies below a directory of a store as such
a record.  A file is its text, or a record with its bytes as hexadecimal digits.
-/

namespace ModelAssist

/-- The value of a hexadecimal digit. -/
def hexadecimalDigit? (char : Char) : Option Nat :=
  if char.isDigit then some (char.toNat - 48)
  else if 'a' ≤ char && char ≤ 'f' then some (char.toNat - 87)
  else if 'A' ≤ char && char ≤ 'F' then some (char.toNat - 55)
  else none

/-- The bytes that pairs of hexadecimal digits write. -/
def bytesOfHexadecimal : List Char → List UInt8
  | high :: low :: rest =>
    match hexadecimalDigit? high, hexadecimalDigit? low with
    | some high, some low => UInt8.ofNat (high * 16 + low) :: bytesOfHexadecimal rest
    | _, _ => bytesOfHexadecimal rest
  | _ => []

/-- The entry that a value stands for; `textOf` gives the text of what is no record. -/
def FileEntry.ofValue (textOf : Value → String) (value : Value) : FileEntry :=
  match value with
  | .record _ =>
    match value.text? "hex" with
    | some digits => .file (bytesOfHexadecimal digits.toList)
    | none => if (value.get "dir").asFlag then .directory else .sealed
  | value => .file (Text.utf8 (textOf value).toList)

/-- The value of an entry. -/
def FileEntry.toValue : FileEntry → Value
  | .link target => .ofFields [("link", .text target.text)]
  | .file content => .text (String.ofList (Text.decodeMarking content))
  | _ => .null

/-- The store with the entries that a record gives. -/
def FileStore.ofValue [Host] (textOf : Value → String) (links : LinkPolicy) (value : Value) :
    FileStore :=
  value.asFields.foldl
    (fun files (path, entry) => files.put (Path.ofText path) (FileEntry.ofValue textOf entry))
    (FileStore.initial links)

/-- What lies below a directory, as a record of paths that start there. -/
def FileStore.toValue (files : FileStore) (directory : Path) : Value :=
  .ofFields ((files.below directory).map fun (parts, entry) =>
    (String.intercalate "/" parts, entry.toValue))

end ModelAssist
