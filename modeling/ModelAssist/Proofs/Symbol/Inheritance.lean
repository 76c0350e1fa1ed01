import Mathlib.Data.List.Basic
import Mathlib.Logic.Relation
import ModelAssist.Proofs.Walk
import ModelAssist.Symbol.Extraction

/-!
# Parents from several files

The parents that the inheritance graph knows of a name are those that the files list for it
(`Inheritance.parents_eq`), file after file in the order in which the files were first indexed.  The
lineage of a name are the names that parents lead to (`Inheritance.mem_lineage`).
-/

namespace ModelAssist

namespace Inheritance

/-- The parents that some edges list for a name. -/
def listed (edges : InheritanceEdges) (name : String) : List String :=
  (edges.get? name).getD []

@[simp] theorem listed_empty (name : String) : listed ∅ name = [] := rfl

/-- Further parents of a child are listed after those that it had. -/
theorem listed_extend (edges : InheritanceEdges) (child : String) (parents : List String)
    (name : String) :
    listed (extend edges child parents) name =
      listed edges name ++ if child = name then parents else [] := by
  simp only [listed, extend, OrderedMap.modify, OrderedMap.get?_insert]
  by_cases same : name = child
  · simp [same]
  · simp [same, Ne.symm same]

/-- Adding parents keeps the children distinct. -/
theorem nodup_keys_extend {edges : InheritanceEdges} (distinct : edges.keys.Nodup) (child : String)
    (parents : List String) : (extend edges child parents).keys.Nodup :=
  OrderedMap.nodup_keys_insert distinct child _

private theorem listed_foldl_extend (entries : List (String × List String))
    (edges : InheritanceEdges) (name : String) :
    listed (entries.foldl (fun edges (child, parents) => extend edges child parents) edges) name =
      listed edges name ++ (entries.filter (·.1 = name)).flatMap (·.2) := by
  induction entries generalizing edges with
  | nil => simp
  | cons entry rest ih =>
      rw [List.foldl_cons, ih, listed_extend, List.filter_cons]
      by_cases same : entry.1 = name <;> simp [same]

private theorem flatMap_entries {edges : InheritanceEdges} (distinct : edges.keys.Nodup)
    (name : String) :
    (edges.entries.filter (·.1 = name)).flatMap (·.2) = listed edges name := by
  obtain ⟨entries⟩ := edges
  simp only [listed, OrderedMap.get?, OrderedMap.keys] at distinct ⊢
  induction entries with
  | nil => rfl
  | cons entry rest ih =>
      obtain ⟨fresh, distinct⟩ := List.nodup_cons.mp distinct
      rw [List.filter_cons]
      simp only [OrderedMap.lookup]
      by_cases same : entry.1 = name
      · have none_ : rest.filter (·.1 = name) = [] := by
          rw [List.filter_eq_nil_iff]
          intro other member
          simp only [decide_eq_true_eq]
          intro again
          have listedAgain := List.mem_map_of_mem (f := Prod.fst) member
          rw [again, ← same] at listedAgain
          exact fresh listedAgain
        simp [same, none_]
      · simpa [same] using ih distinct

private theorem parents_eq_entries (graph : Inheritance) (name : String) :
    graph.parents name =
      ((graph.byFile.values.flatMap (·.entries)).filter (·.1 = name)).flatMap (·.2) := by
  change listed graph.merged name = _
  rw [merged, listed_foldl_extend, listed_empty, List.nil_append]

/-- The parents of a name are those that the files list for it, file after file. -/
theorem parents_eq {graph : Inheritance}
    (distinct : ∀ edges ∈ graph.byFile.values, edges.keys.Nodup) (name : String) :
    graph.parents name = graph.byFile.values.flatMap (listed · name) := by
  rw [parents_eq_entries]
  revert distinct
  induction graph.byFile.values with
  | nil => exact fun _ => rfl
  | cons edges rest ih =>
      intro distinct
      rw [List.flatMap_cons, List.flatMap_cons, List.filter_append, List.flatMap_append,
        flatMap_entries (distinct edges List.mem_cons_self),
        ih fun other member => distinct other (List.mem_cons_of_mem _ member)]

/-- Holds if some file lists a name as a parent of another. -/
def Edge (graph : Inheritance) (child parent : String) : Prop :=
  ∃ edges ∈ graph.byFile.values, ∃ parents, (child, parents) ∈ edges.entries ∧ parent ∈ parents

/-- The parents of a class are those it has an edge to. -/
theorem mem_parents_iff {graph : Inheritance} {child parent : String} :
    parent ∈ graph.parents child ↔ graph.Edge child parent := by
  rw [parents_eq_entries]
  simp only [List.mem_flatMap, List.mem_filter, decide_eq_true_eq]
  constructor
  · rintro ⟨⟨_, parents⟩, ⟨⟨edges, file, entry⟩, rfl⟩, named⟩
    exact ⟨edges, file, parents, entry, named⟩
  · rintro ⟨edges, file, parents, entry, named⟩
    exact ⟨(child, parents), ⟨⟨edges, file, entry⟩, rfl⟩, named⟩

/-- The lineage of a name are the names that parents lead to. -/
theorem mem_lineage {graph : Inheritance} {name ancestor : String} :
    ancestor ∈ graph.lineage name ↔
      Relation.ReflTransGen (fun child parent => parent ∈ graph.parents child) name ancestor := by
  constructor
  · intro reached
    refine Walk.reached_induction ?_ ?_ reached
    · intro start member
      rw [List.mem_singleton.mp member]
    · intro child found parent leads
      exact found.tail leads
  · intro found
    induction found with
    | refl => exact Walk.start_subset_reached List.mem_cons_self
    | tail _ leads reached => exact Walk.reached_closed reached leads

end Inheritance

/-- The edges of a tree name no child twice. -/
theorem Extraction.nodup_keys_inheritance (root : Tree.Node) :
    (Extraction.inheritance root).keys.Nodup := by
  unfold Extraction.inheritance
  generalize (Tree.Place.root root).outermost "isa_declaration" = declarations
  have start : (∅ : InheritanceEdges).keys.Nodup := List.nodup_nil
  revert start
  generalize (∅ : InheritanceEdges) = edges
  intro distinct
  induction declarations generalizing edges with
  | nil => exact distinct
  | cons declaration rest ih =>
      rw [List.foldl_cons]
      apply ih
      split
      · exact distinct
      · split
        · exact distinct
        · exact Inheritance.nodup_keys_extend distinct _ _

end ModelAssist
