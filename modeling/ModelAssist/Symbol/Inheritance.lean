import ModelAssist.Data.Walk
import ModelAssist.Symbol.Registry

/-!
# Inheritance

Which class-like entities inherit from which, by the `isA` clauses of all files, and the members
that a container inherits.
-/

namespace ModelAssist

/-- The parents of every child, in the order in which they are named. -/
abbrev InheritanceEdges := OrderedMap String (List String)

/-- The inheritance edges of every file. -/
structure Inheritance where
  /-- The edges by file. -/
  byFile : OrderedMap String InheritanceEdges
deriving Inhabited

namespace Inheritance

/-- The graph without edges. -/
def empty : Inheritance := ⟨∅⟩

instance : EmptyCollection Inheritance := ⟨empty⟩

/-- The graph after the edges of a file were replaced. -/
def insert (graph : Inheritance) (file : String) (edges : InheritanceEdges) : Inheritance :=
  ⟨graph.byFile.insert file edges⟩

/-- The graph without the edges of a file. -/
def retract (graph : Inheritance) (file : String) : Inheritance :=
  ⟨graph.byFile.erase file⟩

/-- Some edges after further parents of a child. -/
def extend (edges : InheritanceEdges) (child : String) (parents : List String) :
    InheritanceEdges :=
  edges.modify child fun old => old.getD [] ++ parents

/-- The edges of all files together. -/
def merged (graph : Inheritance) : InheritanceEdges :=
  (graph.byFile.values.flatMap (·.entries)).foldl
    (fun edges (child, parents) => extend edges child parents) ∅

/-- The parents of a name, in all files. -/
def parents (graph : Inheritance) (name : String) : List String :=
  (graph.merged.get? name).getD []

/-- Only the names that some file lists parents of have any. -/
theorem mem_keys_of_parents {graph : Inheritance} {child : String}
    (leads : graph.parents child ≠ []) : child ∈ graph.merged.keys := by
  rw [OrderedMap.mem_keys_iff]
  cases known : graph.merged.get? child with
  | none => simp [parents, known] at leads
  | some parents => rfl

theorem bounded_parents (graph : Inheritance) : Walk.Bounded graph.parents :=
  ⟨graph.merged.keys, fun _ _ _ => mem_keys_of_parents⟩

/-- A name and its ancestors, depth first in the order of the `isA` clauses, each name once. -/
def lineage (graph : Inheritance) (name : String) : List String :=
  Walk.reached graph.parents graph.bounded_parents [name]

/-- The symbols of a container and of its ancestors that meet a condition, the container's first. -/
def inherited (registry : Registry) (graph : Inheritance) (container : String)
    (filter : SymbolFilter) : List SymbolEntry :=
  (graph.lineage container).flatMap (registry.members · filter)

end Inheritance

end ModelAssist
