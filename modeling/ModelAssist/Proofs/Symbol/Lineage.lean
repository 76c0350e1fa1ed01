import ModelAssist.Proofs.Symbol.Inheritance
import ModelAssist.Proofs.Symbol.Registry

/-!
# Ancestors and what they hand down

The lineage of a name lists the name and all its ancestors depth first, and is the only list that
does so (`Inheritance.isLineage_iff`).  What a container inherits are the symbols of its lineage,
each as often as it is registered and those of the container first
(`Inheritance.inherits_along_lineage`).
-/

namespace ModelAssist

namespace Inheritance

open Relation (ReflTransGen)

variable {graph : Inheritance} {name : String}

/-- Holds of a name and its ancestors, each once, depth first in the order of their parents. -/
structure IsLineage (graph : Inheritance) (name : String) (names : List String) : Prop where
  starts : names.head? = some name
  distinct : names.Nodup
  mem_iff : ∀ other, other ∈ names ↔ ReflTransGen graph.Edge name other
  depthFirst : Walk.DepthFirst graph.parents [] [name] names

/-- The lineage that is walked is a lineage of the class. -/
theorem isLineage_lineage (graph : Inheritance) (name : String) :
    graph.IsLineage name (graph.lineage name) := by
  have walk : Walk.DepthFirst graph.parents [] [name] (graph.lineage name) :=
    Walk.depthFirst_reached _ [name]
  have starts : (graph.lineage name).head? = some name := by
    generalize graph.lineage name = names at walk
    cases walk with
    | skip old _ => cases old
    | meet _ _ _ => rfl
  refine ⟨starts, Walk.nodup_reached _ _, fun other => ?_, walk⟩
  have linked : (fun child parent => parent ∈ graph.parents child) = graph.Edge := by
    funext child parent
    exact propext mem_parents_iff
  rw [mem_lineage, linked]

/-- The lineage of a name is the only list of its kind. -/
theorem isLineage_iff {names : List String} :
    graph.IsLineage name names ↔ names = graph.lineage name := by
  constructor
  · intro isLineage
    exact isLineage.depthFirst.unique (isLineage_lineage graph name).depthFirst
  · rintro rfl
    exact isLineage_lineage graph name

end Inheritance

namespace Registry

private theorem filter_or_perm {holds also : SymbolEntry → Bool}
    (apart : ∀ symbol, holds symbol → ¬ also symbol) (symbols : List SymbolEntry) :
    (symbols.filter holds ++ symbols.filter also).Perm
      (symbols.filter fun symbol => holds symbol || also symbol) := by
  induction symbols with
  | nil => exact .refl _
  | cons symbol rest ih =>
      by_cases first : holds symbol
      · simpa [List.filter_cons, first, apart symbol first] using ih
      · by_cases second : also symbol
        · simpa [List.filter_cons, first, second] using List.perm_middle.trans (ih.cons symbol)
        · simpa [List.filter_cons, first, second] using ih

/-- The symbols of several containers one by one are all that belong to any of them. -/
private theorem flatMap_owners_perm {owners : List String} (distinct : owners.Nodup)
    (symbols : List SymbolEntry) :
    (owners.flatMap fun owner => symbols.filter (·.container = some owner)).Perm
      (symbols.filter fun symbol => symbol.container.any owners.contains) := by
  induction owners with
  | nil =>
      refine .of_eq (List.filter_eq_nil_iff.mpr fun symbol _ => ?_).symm
      cases symbol.container <;> exact Bool.false_ne_true
  | cons owner rest ih =>
      obtain ⟨fresh, distinct⟩ := List.nodup_cons.mp distinct
      have apart (symbol : SymbolEntry) (own : symbol.container = some owner) :
          ¬ symbol.container.any rest.contains := by
        simpa [own] using fresh
      have whole := ((ih distinct).append_left _).trans
        (filter_or_perm (fun symbol own => apart symbol (of_decide_eq_true own)) symbols)
      refine whole.trans (.of_eq (List.filter_congr fun symbol _ => ?_))
      cases symbol.container with
      | none => rfl
      | some other => simp [eq_comm]

/-- The members of a container are the symbols that name it, in some order. -/
theorem Sorted.members_perm {registry : Registry} (sorted : registry.Sorted) (container : String)
    (filter : SymbolFilter) :
    (registry.members container filter).Perm
      ((registry.symbols filter).filter (·.container = some container)) := by
  rw [members_eq, symbols, List.filter_comm]
  exact (sorted.bucket_perm container).filter _

end Registry

namespace Inheritance

section Sorted

variable {registry : Registry} (sorted : registry.Sorted) (graph : Inheritance)
  (container : String) (filter : SymbolFilter)
include sorted

/-- The inherited symbols are those of the lineage, in some order. -/
theorem inherited_perm :
    (inherited registry graph container filter).Perm ((registry.symbols filter).filter
      fun symbol => symbol.container.any (graph.lineage container).contains) := by
  have members := fun owner (_ : owner ∈ graph.lineage container) =>
    sorted.members_perm owner filter
  have distinct := (isLineage_lineage graph container).distinct
  exact (List.Perm.flatMap_left _ members).trans (Registry.flatMap_owners_perm distinct _)

/-- The symbols of a container come before those of its ancestors. -/
theorem inherited_eq_append :
    ∃ others, inherited registry graph container filter =
        registry.members container filter ++ others ∧
      ∀ symbol ∈ others, symbol.container ≠ some container := by
  obtain ⟨starts, distinct, -, -⟩ := isLineage_lineage graph container
  obtain ⟨ancestors, lineage_eq⟩ := List.head?_eq_some_iff.mp starts
  refine ⟨ancestors.flatMap (registry.members · filter), ?_, ?_⟩
  · rw [inherited, lineage_eq, List.flatMap_cons]
  · intro symbol inherits own
    obtain ⟨ancestor, above, member⟩ := List.mem_flatMap.mp inherits
    have owned := (List.mem_filter.mp ((sorted.members_perm ancestor filter).mem_iff.mp member)).2
    obtain rfl : ancestor = container :=
      Option.some.inj ((of_decide_eq_true owned).symm.trans own)
    rw [lineage_eq] at distinct
    exact (List.nodup_cons.mp distinct).1 above

end Sorted

/-- **A container inherits along its lineage.**  The lineage is the container with all its
ancestors, each once and depth first.  Every symbol of the registry that belongs to one of them and
meets the condition is inherited as often as it is registered, those of the container first. -/
theorem inherits_along_lineage (graph : Inheritance) (changes : List Registry.Change)
    (container : String) (filter : SymbolFilter) :
    (∀ names, graph.IsLineage container names ↔ names = graph.lineage container) ∧
    (inherited (.after changes) graph container filter).Perm
      (((Registry.after changes).symbols filter).filter
        fun symbol => symbol.container.any (graph.lineage container).contains) ∧
    ∃ others, inherited (.after changes) graph container filter =
        (Registry.after changes).members container filter ++ others ∧
      ∀ symbol ∈ others, symbol.container ≠ some container := by
  have sorted := Registry.sorted_after changes
  exact ⟨fun _ => isLineage_iff, inherited_perm sorted graph container filter,
    inherited_eq_append sorted graph container filter⟩

end Inheritance

end ModelAssist
