import ModelAssist.Data.OrderedMap
import ModelAssist.Symbol.Entry

/-!
# The registry of containers

The symbols of all files, by the name of the container that they belong to.  A class may be split
across files, so the parts that several files contribute under one name form one container.
-/

namespace ModelAssist

/-- The symbols of every container, in the order in which they were added. -/
structure Registry where
  /-- The symbols by container. -/
  buckets : OrderedMap String (List SymbolEntry)
deriving Inhabited

namespace Registry

/-- The registry without symbols. -/
def empty : Registry := ⟨∅⟩

instance : EmptyCollection Registry := ⟨empty⟩

/-- The registry after one more symbol; one without a container is not registered. -/
def add (registry : Registry) (symbol : SymbolEntry) : Registry :=
  match symbol.container with
  | none => registry
  | some container =>
    ⟨registry.buckets.modify container fun old => old.getD [] ++ [symbol]⟩

/-- The registry after the symbols of a file; symbols of other files among them are skipped. -/
def insert (registry : Registry) (file : String) (symbols : List SymbolEntry) : Registry :=
  (symbols.filter (·.file = file)).foldl add registry

/-- The registry without the symbols of a file, and without the containers that lose all of
theirs. -/
def retract (registry : Registry) (file : String) : Registry :=
  ⟨⟨registry.buckets.entries.filterMap fun (container, symbols) =>
    match symbols.filter (·.file ≠ file) with
    | [] => none
    | kept => some (container, kept)⟩⟩

/-- The symbols of a container that meet a condition. -/
def members (registry : Registry) (container : String) (filter : SymbolFilter) :
    List SymbolEntry :=
  ((registry.buckets.get? container).getD []).filter filter.admits

/-- All symbols that meet a condition, container by container. -/
def symbols (registry : Registry) (filter : SymbolFilter) : List SymbolEntry :=
  registry.buckets.values.flatten.filter filter.admits

end Registry

end ModelAssist
