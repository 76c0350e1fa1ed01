/-!
# Walks

The elements that are reached from some given ones by a relation, each once and depth first.  The
relation may lead in circles; a walk ends because only finitely many elements lead on.  The
inheritance of classes and the imports of files are walked like this.
-/

namespace ModelAssist.Walk

variable {Element : Type}

/-- Holds of the relations by which only finitely many of the elements that are led to lead on. -/
def Bounded (next : Element → List Element) : Prop :=
  ∃ sources : List Element, ∀ element, ∀ other ∈ next element, next other ≠ [] → other ∈ sources

variable [DecidableEq Element]

/-- What is left of a walk: the sources that it has not visited, and the pending elements besides
them that lead on. -/
def left (next : Element → List Element) (sources visited pending : List Element) : Nat :=
  sources.countP (· ∉ visited) +
    pending.countP fun element => element ∉ visited ∧ element ∉ sources ∧ next element ≠ []

section

variable {next : Element → List Element} {sources visited pending : List Element}
  {element : Element}

/-- One more visited element leaves no more sources to visit. -/
private theorem sources_visited_le (sources visited : List Element) (element : Element) :
    sources.countP (· ∉ visited ++ [element]) ≤ sources.countP (· ∉ visited) := by
  refine List.countP_mono_left fun other _ new => ?_
  simp only [List.mem_append, decide_eq_true_eq] at new ⊢
  exact fun old => new (.inl old)

/-- A source that is visited for the first time leaves fewer sources to visit. -/
private theorem sources_visited_lt (source : element ∈ sources) (fresh : element ∉ visited) :
    sources.countP (· ∉ visited ++ [element]) < sources.countP (· ∉ visited) := by
  obtain ⟨before, behind, rfl⟩ := List.append_of_mem source
  have fewerBefore := sources_visited_le before visited element
  have fewerBehind := sources_visited_le behind visited element
  have old : element ∈ visited ++ [element] := List.mem_append_right _ List.mem_cons_self
  simp only [List.countP_append, List.countP_cons, old, fresh, not_true_eq_false,
    not_false_eq_true, decide_false, decide_true, Bool.false_eq_true, if_true, if_false]
  omega

/-- One more visited element leaves no more pending ones that are neither visited nor sources and
lead on. -/
private theorem pending_visited_le (pending : List Element) :
    (pending.countP fun other =>
        other ∉ visited ++ [element] ∧ other ∉ sources ∧ next other ≠ []) ≤
      pending.countP fun other => other ∉ visited ∧ other ∉ sources ∧ next other ≠ [] := by
  refine List.countP_mono_left fun other _ new => ?_
  simp only [List.mem_append, decide_eq_true_eq] at new ⊢
  exact ⟨fun old => new.1 (.inl old), new.2⟩

/-- Passing over a pending element leaves no more. -/
theorem left_tail_le (element : Element) :
    left next sources visited pending ≤ left next sources visited (element :: pending) := by
  rw [left, left, List.countP_cons]
  omega

/-- Visiting a pending element leaves no more. -/
theorem left_visited_le (element : Element) :
    left next sources (visited ++ [element]) pending ≤
      left next sources visited (element :: pending) :=
  Nat.le_trans
    (Nat.add_le_add (sources_visited_le sources visited element) (pending_visited_le pending))
    (left_tail_le element)

/-- Visiting a pending element that leads on leaves less. -/
theorem left_visited_lt (fresh : element ∉ visited) (leads : next element ≠ []) :
    left next sources (visited ++ [element]) pending <
      left next sources visited (element :: pending) := by
  have noMore : (pending.countP fun other =>
        other ∉ visited ++ [element] ∧ other ∉ sources ∧ next other ≠ []) ≤
      pending.countP fun other => other ∉ visited ∧ other ∉ sources ∧ next other ≠ [] :=
    pending_visited_le pending
  rw [left, left, List.countP_cons]
  by_cases source : element ∈ sources
  · have less := sources_visited_lt source fresh
    omega
  · have fewer := sources_visited_le sources visited element
    simp only [fresh, source, leads, not_false_eq_true, and_self, ne_eq, decide_true, if_true]
    simp only [ne_eq] at noMore
    omega

/-- Elements that lead on only if they are sources leave nothing more. -/
theorem left_append {further : List Element}
    (inside : ∀ other ∈ further, next other ≠ [] → other ∈ sources) :
    left next sources visited (further ++ pending) = left next sources visited pending := by
  have nothing : (further.countP fun other =>
      other ∉ visited ∧ other ∉ sources ∧ next other ≠ []) = 0 := by
    rw [List.countP_eq_zero]
    intro other member leads
    simp only [decide_eq_true_eq] at leads
    exact leads.2.1 (inside other member leads.2.2)
  rw [left, List.countP_append, nothing, Nat.zero_add, ← left]

end

/-- The elements visited by a walk through the pending ones, after those visited before. -/
def visit (next : Element → List Element) (bounded : Bounded next) (visited : List Element) :
    List Element → List Element
  | [] => visited
  | element :: pending =>
    if element ∈ visited then visit next bounded visited pending
    else visit next bounded (visited ++ [element]) (next element ++ pending)
  termination_by pending => (left next bounded.choose visited pending, pending.length)
  decreasing_by
    · exact Prod.Lex.right' _ (left_tail_le element) (Nat.lt_succ_self _)
    · rename_i fresh
      -- an element that leads nowhere makes the list of the pending ones shorter
      by_cases leads : next element = []
      · rw [leads]
        exact Prod.Lex.right' _ (left_visited_le element) (Nat.lt_succ_self _)
      · refine Prod.Lex.left _ _ ?_
        rw [left_append (bounded.choose_spec element)]
        exact left_visited_lt fresh leads

/-- The elements reached from the given ones, these included. -/
def reached (next : Element → List Element) (bounded : Bounded next) (start : List Element) :
    List Element :=
  visit next bounded [] start

end ModelAssist.Walk
