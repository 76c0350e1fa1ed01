import Mathlib.Data.List.Basic
import ModelAssist.Data.Walk

/-!
# What a walk reaches

The elements that a walk reaches are the least set that holds those it starts from and that the
relation does not lead out of (`Walk.start_subset_reached`, `Walk.reached_closed`,
`Walk.reached_induction`).  It meets them depth first (`Walk.depthFirst_reached`), and there is only
one order that does so (`Walk.DepthFirst.unique`).
-/

namespace ModelAssist.Walk

variable {Element : Type} [DecidableEq Element] {next : Element → List Element}

omit [DecidableEq Element] in
/-- What is visited or pending still is when the first pending element is passed over. -/
private theorem mem_of_seen {visited pending : List Element} {first element : Element}
    (seen : first ∈ visited) (member : element ∈ visited ∨ element ∈ first :: pending) :
    element ∈ visited ∨ element ∈ pending := by
  rcases member with old | new
  · exact Or.inl old
  · rcases List.mem_cons.mp new with rfl | later
    · exact Or.inl seen
    · exact Or.inr later

omit [DecidableEq Element] in
/-- What is visited or pending still is when the first pending element is visited. -/
private theorem mem_of_visited {visited pending : List Element} {first element : Element}
    (member : element ∈ visited ∨ element ∈ first :: pending) :
    element ∈ visited ++ [first] ∨ element ∈ pending := by
  rcases member with old | new
  · exact Or.inl (List.mem_append_left _ old)
  · rcases List.mem_cons.mp new with rfl | later
    · exact Or.inl (List.mem_append_right _ List.mem_cons_self)
    · exact Or.inr later

variable {bounded : Bounded next}

private theorem subset_visit {visited pending : List Element} {element : Element}
    (member : element ∈ visited ∨ element ∈ pending) :
    element ∈ visit next bounded visited pending := by
  fun_induction visit next bounded visited pending with
  | case1 => simpa using member
  | case2 visited first pending seen ih => exact ih (mem_of_seen seen member)
  | case3 visited first pending unseen ih =>
      exact ih ((mem_of_visited member).imp_right (List.mem_append_right _))

/-- A walk that has followed what it visited ends with all of it followed. -/
private theorem visit_closed {visited pending : List Element}
    (followed : ∀ element ∈ visited, ∀ other ∈ next element, other ∈ visited ∨ other ∈ pending)
    {element other : Element} (reached : element ∈ visit next bounded visited pending)
    (leads : other ∈ next element) : other ∈ visit next bounded visited pending := by
  fun_induction visit next bounded visited pending with
  | case1 visited => exact (followed element reached other leads).resolve_right List.not_mem_nil
  | case2 visited first pending seen ih =>
      refine ih (fun element member other leads => ?_) reached
      exact mem_of_seen seen (followed element member other leads)
  | case3 visited first pending unseen ih =>
      refine ih (fun element member other leads => ?_) reached
      rcases List.mem_append.mp member with old | new
      · have onward := mem_of_visited (followed element old other leads)
        exact onward.imp_right (List.mem_append_right _)
      · rw [List.mem_singleton.mp new] at leads
        exact Or.inr (List.mem_append_left _ leads)

/-- Whatever is visited belongs to every set that holds what was visited or pending before and that
the relation does not lead out of. -/
private theorem visit_induction {visited pending : List Element} {holds : Element → Prop}
    (before : ∀ element ∈ visited, holds element) (start : ∀ element ∈ pending, holds element)
    (step : ∀ element, holds element → ∀ other ∈ next element, holds other)
    {element : Element} (reached : element ∈ visit next bounded visited pending) :
    holds element := by
  fun_induction visit next bounded visited pending with
  | case1 => exact before element reached
  | case2 visited first pending seen ih =>
      exact ih before (fun element later => start element (List.mem_cons_of_mem _ later)) reached
  | case3 visited first pending unseen ih =>
      have first_ := start first List.mem_cons_self
      refine ih ?_ ?_ reached
      · intro element member
        rcases List.mem_append.mp member with old | new
        · exact before element old
        · exact List.mem_singleton.mp new ▸ first_
      · intro element member
        rcases List.mem_append.mp member with new | later
        · exact step first first_ element new
        · exact start element (List.mem_cons_of_mem _ later)

private theorem nodup_visit {visited pending : List Element} (distinct : visited.Nodup) :
    (visit next bounded visited pending).Nodup := by
  fun_induction visit next bounded visited pending with
  | case1 => exact distinct
  | case2 visited first pending seen ih => exact ih distinct
  | case3 visited first pending unseen ih =>
      refine ih (List.nodup_append.mpr ⟨distinct, by simp, ?_⟩)
      rintro element seen _ last rfl
      exact unseen (List.mem_singleton.mp last ▸ seen)

private theorem visit_congr {next' : Element → List Element} {bounded' : Bounded next'}
    {visited pending : List Element}
    (same : ∀ element ∈ visit next bounded visited pending, next element = next' element) :
    visit next bounded visited pending = visit next' bounded' visited pending := by
  fun_induction visit next bounded visited pending with
  | case1 visited => rw [visit]
  | case2 visited first pending seen ih =>
      rw [visit, if_pos seen]
      exact ih same
  | case3 visited first pending unseen ih =>
      have visitedFirst : first ∈ visited ++ [first] := List.mem_append_right _ List.mem_cons_self
      have sameFirst : next first = next' first := same first (subset_visit (Or.inl visitedFirst))
      rw [visit, if_neg unseen, ← sameFirst]
      exact ih same

/-- A walk depends on where the elements lead that it reaches, and on no others. -/
theorem reached_congr {next' : Element → List Element} (bounded : Bounded next)
    (bounded' : Bounded next') {start : List Element}
    (same : ∀ element ∈ reached next bounded start, next element = next' element) :
    reached next bounded start = reached next' bounded' start :=
  visit_congr same

/-- A walk visits nothing twice. -/
theorem nodup_reached (bounded : Bounded next) (start : List Element) :
    (reached next bounded start).Nodup :=
  nodup_visit List.nodup_nil

/-- A walk reaches what it starts from. -/
theorem start_subset_reached {start : List Element} {element : Element} (member : element ∈ start) :
    element ∈ reached next bounded start :=
  subset_visit (Or.inr member)

/-- A walk reaches what the elements that it reaches lead to. -/
theorem reached_closed {start : List Element} {element other : Element}
    (member : element ∈ reached next bounded start) (leads : other ∈ next element) :
    other ∈ reached next bounded start :=
  visit_closed (fun _ seen => absurd seen List.not_mem_nil) member leads

/-- What holds of the elements that a walk starts from, and of all that an element leads to if it
holds of that element, holds of all that the walk reaches. -/
theorem reached_induction {start : List Element} {holds : Element → Prop}
    (begins : ∀ element ∈ start, holds element)
    (step : ∀ element, holds element → ∀ other ∈ next element, holds other)
    {element : Element} (member : element ∈ reached next bounded start) : holds element :=
  visit_induction (fun _ seen => absurd seen List.not_mem_nil) begins step member

/-! ### The order of a walk -/

/-- Holds if a depth-first walk from the pending elements meets others in the given order, each
before all that it leads to; the elements that were seen are left out. -/
inductive DepthFirst (next : Element → List Element) :
    (seen pending order : List Element) → Prop
  | nil {seen : List Element} : DepthFirst next seen [] []
  | skip {first : Element} {seen pending order : List Element} (old : first ∈ seen)
      (rest : DepthFirst next seen pending order) : DepthFirst next seen (first :: pending) order
  | meet {first : Element} {seen pending inner outer : List Element} (new : first ∉ seen)
      (below : DepthFirst next (seen ++ [first]) (next first) inner)
      (rest : DepthFirst next (seen ++ first :: inner) pending outer) :
      DepthFirst next seen (first :: pending) (first :: (inner ++ outer))

namespace DepthFirst

variable {seen first second order : List Element}

omit [DecidableEq Element] in
/-- The walk from some elements comes before that from the elements behind them. -/
theorem split (walk : DepthFirst next seen (first ++ second) order) :
    ∃ inner outer, order = inner ++ outer ∧ DepthFirst next seen first inner ∧
      DepthFirst next (seen ++ inner) second outer := by
  induction first generalizing seen order with
  | nil => exact ⟨[], order, rfl, .nil, by rwa [List.append_nil]⟩
  | cons element pending ih =>
      cases walk with
      | skip old rest =>
          obtain ⟨inner, outer, rfl, one, other⟩ := ih rest
          exact ⟨inner, outer, rfl, .skip old one, other⟩
      | @meet _ _ _ under _ new below rest =>
          obtain ⟨inner, outer, rfl, one, other⟩ := ih rest
          refine ⟨element :: (under ++ inner), outer, ?_, .meet new below one, ?_⟩
          · rw [List.cons_append, List.append_assoc]
          · rwa [List.append_assoc, List.cons_append] at other

omit [DecidableEq Element] in
/-- A depth-first walk is determined by where it starts. -/
theorem unique {pending order' : List Element} (walk : DepthFirst next seen pending order)
    (other : DepthFirst next seen pending order') : order = order' := by
  induction walk generalizing order' with
  | nil => cases other; rfl
  | skip old _ ih =>
      cases other with
      | skip _ rest => exact ih rest
      | meet new _ _ => exact absurd old new
  | meet new _ _ ihBelow ihRest =>
      cases other with
      | skip old _ => exact absurd old new
      | meet _ below rest =>
          obtain rfl := ihBelow below
          rw [ihRest rest]

end DepthFirst

/-- A walk adds what it meets depth first to what was visited. -/
private theorem exists_depthFirst_visit (bounded : Bounded next) (visited pending : List Element) :
    ∃ order, visit next bounded visited pending = visited ++ order ∧
      DepthFirst next visited pending order := by
  fun_induction visit next bounded visited pending with
  | case1 => exact ⟨[], (List.append_nil _).symm, .nil⟩
  | case2 visited first pending seen ih =>
      obtain ⟨order, walked, walk⟩ := ih
      exact ⟨order, walked, .skip seen walk⟩
  | case3 visited first pending unseen ih =>
      obtain ⟨order, walked, walk⟩ := ih
      obtain ⟨inner, outer, rfl, below, rest⟩ := walk.split
      rw [List.append_assoc] at walked rest
      exact ⟨first :: (inner ++ outer), walked, .meet unseen below rest⟩

/-- A walk meets what it reaches depth first. -/
theorem depthFirst_reached (bounded : Bounded next) (start : List Element) :
    DepthFirst next [] start (reached next bounded start) := by
  obtain ⟨order, walked, walk⟩ := exists_depthFirst_visit bounded [] start
  rw [List.nil_append] at walked
  rwa [reached, walked]

end ModelAssist.Walk
