import ModelAssist.Completion.Context
import ModelAssist.Proofs.Tree.Leaf

/-!
# Where a declared type ends

Behind the type of an attribute or of a method a new name is typed.  The completion context looks at
the nearest type at or above the leaf before the cursor and asks whether it declares something, but
not whether the leaf ends it.  So it takes every leaf that lies in a declared type and in no type
inside that one for its end, among them the dots of a qualified name, an opening angle bracket and
the commas between arguments.  `CompletionContext.endsDeclaredType_iff` tells the leaves that it
rightly takes from those that it takes by mistake.
-/

namespace ModelAssist.CompletionContext

open ModelAssist.Tree

/-- Holds of the types that an attribute or a method is declared with. -/
def isDeclaredType (place : Place) : Bool :=
  place.kind = "type_name" &&
    (place.fieldInParent? = some "type" || place.fieldInParent? = some "return_type")

/-- Holds of a leaf if a declared type ends with it. -/
def EndsType (leaf : Place) : Prop :=
  ∃ type ∈ leaf.selfAndAbove, isDeclaredType type ∧ type.lastLeaf = leaf

/-- Holds of the nearest type at or above a place. -/
def IsTypeAround (place type : Place) : Prop :=
  ∃ nearer farther, place.selfAndAbove = nearer ++ type :: farther ∧ type.kind = "type_name" ∧
    ∀ other ∈ nearer, other.kind ≠ "type_name"

/-- The type around a place is the first one among the place and what is above it. -/
theorem isTypeAround_iff {place type : Place} :
    IsTypeAround place type ↔
      place.selfAndAbove.find? (·.kind = "type_name") = some type := by
  rw [List.find?_eq_some_iff_append]
  constructor
  · rintro ⟨nearer, farther, split, isType, others⟩
    exact ⟨decide_eq_true isType, nearer, farther, split,
      fun other member => by simpa using others other member⟩
  · rintro ⟨isType, nearer, farther, split, others⟩
    exact ⟨nearer, farther, split, of_decide_eq_true isType,
      fun other member => by simpa using others other member⟩

/-- A declared type is a type name. -/
theorem kind_of_isDeclaredType {type : Place} (declared : isDeclaredType type) :
    type.kind = "type_name" :=
  of_decide_eq_true (Bool.and_eq_true_iff.mp declared).1

/-- A leaf passes for the end of a type if the nearest type declares something. -/
theorem endsDeclaredType_eq_true_iff {leaf : Place} :
    endsDeclaredType leaf ↔ ∃ type, IsTypeAround leaf type ∧ isDeclaredType type := by
  simp only [isTypeAround_iff]
  unfold endsDeclaredType
  cases found : leaf.selfAndAbove.find? (·.kind = "type_name") with
  | none => simp
  | some type =>
      have isType : type.kind = "type_name" := by simpa using List.find?_some found
      simp [isDeclaredType, isType]

namespace IsTypeAround

variable {place type : Place} (around : IsTypeAround place type)
include around

/-- The type around a place is this place or above it. -/
theorem mem : type ∈ place.selfAndAbove := by
  obtain ⟨nearer, farther, split, -⟩ := around
  rw [split]
  exact List.mem_append_right _ List.mem_cons_self

/-- The other types at or above a place lie above the nearest one. -/
theorem mem_above {other : Place} (member : other ∈ place.selfAndAbove)
    (isType : other.kind = "type_name") : other ∈ type.selfAndAbove := by
  obtain ⟨nearer, farther, split, -, others⟩ := around
  rw [Place.selfAndAbove_of_split split]
  rw [split, List.mem_append] at member
  exact member.resolve_left fun near => others other near isType

/-- A declared type that ends with a place ends it together with the nearest type. -/
theorem endsType_iff (declared : isDeclaredType type) :
    EndsType place ↔ type.lastLeaf = place := by
  constructor
  · rintro ⟨other, member, declared', last⟩
    have above := around.mem_above member (kind_of_isDeclaredType declared')
    exact Place.lastLeaf_of_between around.mem above last
  · intro last
    exact ⟨type, around.mem, declared, last⟩

end IsTypeAround

/-- **A leaf passes for the end of a declared type wherever it lies in one directly.**  This is
right exactly if the leaf is the last one of that type, and a mistake at every other leaf that lies
in a declared type and in no type inside that one. -/
theorem endsDeclaredType_iff (leaf : Place) :
    (endsDeclaredType leaf ∧ EndsType leaf ↔
        ∃ type, IsTypeAround leaf type ∧ isDeclaredType type ∧ type.lastLeaf = leaf) ∧
      (endsDeclaredType leaf ∧ ¬ EndsType leaf ↔
        ∃ type, IsTypeAround leaf type ∧ isDeclaredType type ∧ type.lastLeaf ≠ leaf) := by
  simp only [endsDeclaredType_eq_true_iff]
  constructor
  · constructor
    · rintro ⟨⟨type, around, declared⟩, ends⟩
      exact ⟨type, around, declared, (around.endsType_iff declared).mp ends⟩
    · rintro ⟨type, around, declared, last⟩
      exact ⟨⟨type, around, declared⟩, (around.endsType_iff declared).mpr last⟩
  · constructor
    · rintro ⟨⟨type, around, declared⟩, goesOn⟩
      exact ⟨type, around, declared, fun last => goesOn ((around.endsType_iff declared).mpr last)⟩
    · rintro ⟨type, around, declared, goesOn⟩
      exact ⟨⟨type, around, declared⟩, fun ends => goesOn ((around.endsType_iff declared).mp ends)⟩

private def typeNode (kind : String) (field : Option String) (start finish : Nat)
    (children : List Node) : Node :=
  .node ⟨kind, field, start, finish, ⟨0, start⟩, ⟨0, finish⟩, none, false, false, 0, 0⟩ children

private def argument (start : Nat) : Node :=
  typeNode "type_name" none start (start + 1)
    [typeNode "qualified_name" none start (start + 1)
      [typeNode "identifier" none start (start + 1) []]]

/-- The arguments of `p.M<K,V>`. -/
private def arguments : Node :=
  typeNode "type_list" none 4 7 [argument 4, typeNode "," none 5 6 [], argument 6]

/-- The type `p.M<K,V>` of an attribute. -/
private def declaredType : Node :=
  typeNode "type_name" (some "type") 0 8
    [typeNode "qualified_name" none 0 3
        [typeNode "identifier" none 0 1 [], typeNode "." none 1 2 [],
          typeNode "identifier" none 2 3 []],
      typeNode "<" none 3 4 [], arguments, typeNode ">" none 7 8 []]

private def declaration : Node :=
  typeNode "attribute_declaration" none 0 11
    [declaredType, typeNode "identifier" (some "name") 9 10 [], typeNode ";" none 10 11 []]

/-- The comma in `p.M<K,V>` passes for the end of the type, like all of its leaves but the two
arguments. -/
theorem endsDeclaredType_comma :
    let comma : Place :=
      ⟨typeNode "," none 5 6 [], [⟨arguments, 1⟩, ⟨declaredType, 2⟩, ⟨declaration, 0⟩]⟩
    (endsDeclaredType comma ∧ ¬ EndsType comma) ∧
      (((Place.root declaration).leaves.filter fun leaf => leaf.info.endByte ≤ 8).map
        endsDeclaredType = [true, true, true, true, false, true, false, true]) := by
  intro comma
  refine ⟨(endsDeclaredType_iff comma).2.mpr
    ⟨⟨declaredType, [⟨declaration, 0⟩]⟩, ?_, by decide, ?_⟩, by decide⟩
  · exact ⟨[comma, ⟨arguments, [⟨declaredType, 2⟩, ⟨declaration, 0⟩]⟩], _, rfl, rfl, by decide⟩
  · intro same
    exact absurd (congrArg Place.kind same) (by decide)

end ModelAssist.CompletionContext
