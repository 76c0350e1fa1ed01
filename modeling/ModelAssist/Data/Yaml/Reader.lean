import ModelAssist.Data.Yaml.Node
import ModelAssist.Data.Yaml.Scalar

/-!
# Reading YAML

The value of a configuration document.  A key that is written twice keeps its first place and gets
its last value; the entries of merged mappings come before a mapping's own and give way to them.
The values are made level by level from the root on, so that of several faults the first one of the
uppermost level counts.
-/

namespace ModelAssist.Yaml

/-- The basic kinds by the ends of their tags. -/
def basicKinds : List (String × NodeKind) := [
  ("null", .null), ("bool", .truth), ("int", .integer), ("float", .number),
  ("timestamp", .moment), ("str", .text), ("seq", .sequence), ("map", .mapping),
  ("merge", .merge), ("value", .fallback)]

/-- The kind that a tag names, where one tag leaves it open. -/
def kindOfTag (isOpen : NodeKind) (written : String) : NodeKind :=
  if written = "!" then isOpen
  else
    ((basicKinds.find? fun (name, _) => fullTag? written = some (tagStart ++ name)).map
      (·.2)).getD .other

/-- The kind of a node. -/
def Node.kind : Node → NodeKind
  | scalar none _ false => .text
  | scalar tag content _ => tag.elim (kindOfPlain content) (kindOfTag (kindOfPlain content))
  | sequence tag _ => tag.elim .sequence (kindOfTag .sequence)
  | mapping tag _ => tag.elim .mapping (kindOfTag .mapping)

/-- Faults by level, uppermost first. -/
abbrev Faults := List (List YamlFault)

namespace Faults

/-- The faults of what is made before and of what is made after it. -/
def join : Faults → Faults → Faults
  | [], others => others
  | faults, [] => faults
  | first :: faults, second :: others => (first ++ second) :: join faults others

/-- The faults of several that are made one after the other. -/
def joinAll (all : List Faults) : Faults :=
  all.foldr join []

/-- What is malformed once its level is made. -/
def malformed : Faults := [[.malformed]]

end Faults

/-- An entry of a mapping. -/
structure Entry where
  key : Key
  value : Value
  faults : Faults

/-- What is made of a node. -/
structure Made where
  value : Value
  faults : Faults
  /-- The entries of a mapping, with those merged into it; `none` if it has none to give. -/
  entries : Option (List Entry)
  /-- The entries for a mapping that the node is merged into. -/
  merged : Option (List Entry)

/-- The key that a value can be. -/
def keyOf? : Value → Option Key
  | .text text => some (.text text)
  | .list _ => none
  | .record _ => none
  | value => some (.scalar value.spelling)

namespace Made

/-- What is made of a scalar of a kind; one of the kind of a collection only fails when its elements
are made. -/
def ofScalar (content : String) : NodeKind → Made
  | .sequence => ⟨.list [], [] :: Faults.malformed, none, none⟩
  | .mapping => ⟨.record [], [] :: Faults.malformed, none, none⟩
  | kind =>
    match valueOf content kind with
    | .ok value => ⟨value, [], none, none⟩
    | .error fault => ⟨.null, [[fault]], none, none⟩

/-- The faults of a collection of a kind whose elements have faults. -/
def collectionFaults (own kind : NodeKind) (elements : Faults) : Faults :=
  if kind = own then [] :: elements
  else if kind = .sequence ∨ kind = .mapping then [] :: Faults.malformed
  else Faults.malformed

/-- What is made of a sequence of a kind. -/
def ofSequence (kind : NodeKind) (elements : List Made) : Made where
  value := .list (elements.map (·.value))
  faults := collectionFaults .sequence kind (Faults.joinAll (elements.map (·.faults)))
  entries := none
  merged := (elements.mapM Made.entries).map fun parts => parts.reverse.flatten

/-- What is made of a mapping of a kind with its entries, if these could be merged. -/
def ofMapping (kind : NodeKind) (entries : Option (List Entry)) : Made where
  value := .record (Entries.ofPairs ((entries.getD []).map fun entry => (entry.key, entry.value)))
  faults := collectionFaults .mapping kind <|
    match entries with
    | some entries => Faults.joinAll (entries.map (·.faults))
    | none => Faults.malformed
  entries := entries
  merged := entries

/-- The entry with a key and a value; collections are no keys. -/
def entry (key value : Made) : Entry where
  key := (keyOf? key.value).getD (.text "")
  value := value.value
  faults :=
    let unfit := if (keyOf? key.value).isNone then [YamlFault.malformed] else []
    Faults.join [key.faults.headD [] ++ unfit] value.faults

end Made

mutual

/-- What is made of a node. -/
def Node.make (node : Node) : Made :=
  match node with
  | .scalar _ content _ => Made.ofScalar content node.kind
  | .sequence _ elements => Made.ofSequence node.kind (makeAll elements)
  | .mapping _ entries =>
    Made.ofMapping node.kind ((makeEntries entries).map fun (merged, own) => merged ++ own)

/-- What is made of some nodes. -/
def makeAll : List Node → List Made
  | [] => []
  | node :: rest => node.make :: makeAll rest

/-- The entries that are merged into a mapping and its own ones.  The mark of a default value is a
text where it is a key. -/
def makeEntries : List (Node × Node) → Option (List Entry × List Entry)
  | [] => some ([], [])
  | (key, value) :: rest => do
    let (merged, own) ← makeEntries rest
    match key.kind, key with
    | .merge, _ => some ((← value.make.merged) ++ merged, own)
    | .fallback, Node.scalar _ content _ =>
      some (merged, Made.entry (Made.ofScalar content .text) value.make :: own)
    | _, _ => some (merged, Made.entry key.make value.make :: own)

end

/-- The value that a text writes, or why it has none. -/
def read (text : List Char) : Except YamlFault Value :=
  match (tokens? text).bind readDocument with
  | none => .error .malformed
  | some node =>
    match node.make.faults.flatten with
    | fault :: _ => .error fault
    | [] => .ok node.make.value

end ModelAssist.Yaml
