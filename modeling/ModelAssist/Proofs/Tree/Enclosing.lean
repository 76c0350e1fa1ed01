import Mathlib.Data.List.Basic
import ModelAssist.Tree.Enclosing

/-!
# The bodies that a place lies in

The class and the state machine that enclose a place are found by two different walks: one from the
place itself, for a cursor, and one from the place above it, for the name in a definition.  Both
find the nearest class-like node strictly above (`Place.ClassAbove`) and the outermost named state
machine strictly above (`Place.MachineAbove`), except where the walk starts at such a node.
-/

namespace ModelAssist.Tree.Place

/-- Holds of the nearest class-like node above a place. -/
def ClassAbove (place owner : Place) : Prop :=
  ∃ nearer farther, ancestorsOf place.above = nearer ++ owner :: farther ∧
    owner.isClassLike ∧ ∀ other ∈ nearer, ¬ other.isClassLike

/-- Holds of the outermost state machine with a name above a place. -/
def MachineAbove (place machine : Place) : Prop :=
  ∃ nearer farther, ancestorsOf place.above = nearer ++ machine :: farther ∧
    machine.isStateMachine ∧ machine.node.name?.isSome ∧
      ∀ other ∈ farther, other.isStateMachine → other.node.name? = none

/-- What the place above a place finds at or above itself lies above that place. -/
private theorem bind_parent? {Result : Type} (place : Place) (find : List Place → Option Result)
    (nothing : find [] = none) :
    (place.parent?.bind fun parent => find parent.selfAndAbove) =
      find (ancestorsOf place.above) := by
  obtain ⟨node, above⟩ := place
  cases above with
  | nil => exact nothing.symm
  | cons turn rest => rfl

namespace ClassAbove

variable {place owner : Place} (encloses : place.ClassAbove owner)
include encloses

private theorem find?_eq : (ancestorsOf place.above).find? isClassLike = some owner := by
  obtain ⟨nearer, farther, split, found, none_⟩ := encloses
  rw [List.find?_eq_some_iff_append]
  exact ⟨found, nearer, farther, split, fun other member => by simpa using none_ other member⟩

/-- The class around the parent is the innermost class above the place. -/
theorem enclosingClass?_parent :
    place.parent?.bind (·.enclosingClass?) = owner.node.name? := by
  have walked := place.bind_parent?
    (fun above => (above.find? isClassLike).bind (·.node.name?)) rfl
  exact walked.trans (by rw [encloses.find?_eq, Option.bind_some])

/-- The class around a place that is none itself is the innermost one above it. -/
theorem enclosingClass?_eq (other : ¬ place.isClassLike) :
    place.enclosingClass? = owner.node.name? := by
  rw [enclosingClass?, classPlace?, selfAndAbove, List.find?_cons_of_neg other,
    encloses.find?_eq, Option.bind_some]

end ClassAbove

namespace MachineAbove

variable {place machine : Place} (encloses : place.MachineAbove machine)
include encloses

private theorem getLast?_eq :
    (((ancestorsOf place.above).filter isStateMachine).filterMap (·.node.name?)).getLast? =
      machine.node.name? := by
  obtain ⟨nearer, farther, split, found, named, none_⟩ := encloses
  obtain ⟨name, named⟩ := Option.isSome_iff_exists.mp named
  have nameless : (farther.filter isStateMachine).filterMap (·.node.name?) = [] := by
    rw [List.filterMap_eq_nil_iff]
    intro other member
    obtain ⟨above, isMachine⟩ := List.mem_filter.mp member
    exact none_ other above isMachine
  simp only [split, List.filter_append, List.filterMap_append, List.filter_cons_of_pos found,
    List.filterMap_cons, named, nameless, List.getLast?_concat]

theorem isSome_name? : machine.node.name?.isSome := by
  obtain ⟨_, _, _, _, named, _⟩ := encloses
  exact named

/-- The state machine around the parent is the outermost one above the place. -/
theorem rootStateMachine?_parent :
    place.parent?.bind (·.rootStateMachine?) = machine.node.name? := by
  have walked := place.bind_parent?
    (fun above => ((above.filter isStateMachine).filterMap (·.node.name?)).getLast?) rfl
  exact walked.trans encloses.getLast?_eq

/-- The state machine around a place that is none itself is the outermost one above it. -/
theorem rootStateMachine?_eq (other : ¬ place.isStateMachine) :
    place.rootStateMachine? = machine.node.name? := by
  rw [rootStateMachine?, selfAndAbove, List.filter_cons_of_neg other, encloses.getLast?_eq]

end MachineAbove

/-- A word is no body. -/
theorem not_isBody_of_isWord {place : Place} (word : place.isWord) :
    ¬ place.isClassLike ∧ ¬ place.isStateMachine := by
  unfold isClassLike isStateMachine
  rw [isWord, List.contains_iff_mem] at word
  generalize place.kind = kind at word ⊢
  simp only [wordKinds, List.mem_cons, List.not_mem_nil, or_false] at word
  rcases word with rfl | rfl <;> decide

end ModelAssist.Tree.Place
