/-!
# Likeness of texts

How much two texts have in common: the longest part that they share, and then the longest ones in
front of it and behind it.  `commonLength_le` says that a part is no longer than the texts.
-/

namespace ModelAssist.Text

/-- The length of the longest common start of two texts. -/
def commonLength : List Char → List Char → Nat
  | left :: lefts, right :: rights => if left = right then commonLength lefts rights + 1 else 0
  | _, _ => 0

theorem commonLength_le (left right : List Char) : commonLength left right ≤ left.length := by
  fun_induction commonLength left right with
  | case1 left lefts rights ih => simpa using ih
  | case2 => exact Nat.zero_le _
  | case3 => exact Nat.zero_le _

/-- A part that two texts share. -/
structure SharedPart where
  /-- Where it starts in the first text. -/
  left : Nat
  /-- Where it starts in the second text. -/
  right : Nat
  length : Nat
deriving DecidableEq, Repr, Inhabited

/-- All pairs of places in two texts, in ascending order. -/
def places (left right : List Char) : List (Nat × Nat) :=
  (List.range left.length).flatMap fun first =>
    (List.range right.length).map fun second => (first, second)

/-- The longest part that two texts share, of several the one that starts first. -/
def longestShared (left right : List Char) : SharedPart :=
  (places left right).foldl
    (fun best (first, second) =>
      let length := commonLength (left.drop first) (right.drop second)
      if best.length < length then ⟨first, second, length⟩ else best)
    ⟨0, 0, 0⟩

/-- The count of characters that two texts share, where at most so many parts are nested. -/
def sharedWithin : Nat → List Char → List Char → Nat
  | 0, _, _ => 0
  | depth + 1, left, right =>
    let part := longestShared left right
    if part.length = 0 then 0
    else
      sharedWithin depth (left.take part.left) (right.take part.right) + part.length +
        sharedWithin depth (left.drop (part.left + part.length))
          (right.drop (part.right + part.length))

/-- The count of characters that two texts share. -/
def shared (left right : String) : Nat :=
  sharedWithin left.length left.toList right.toList

/-- Holds if three fifths of the characters of two texts are shared. -/
def isAlike (left right : String) : Bool :=
  3 * (left.length + right.length) ≤ 10 * shared left right

/-- Holds if the second of two texts is more like a text than the first, or comes later where they
are equally like it. -/
def isMoreAlike (text left right : String) : Bool :=
  let leftShare := shared left text * (right.length + text.length)
  let rightShare := shared right text * (left.length + text.length)
  leftShare < rightShare || (leftShare == rightShare && decide (left < right))

/-- The texts that are like the given one, at most three and the most alike first. -/
def alike (text : String) (others : List String) : List String :=
  ((others.filter (isAlike · text)).mergeSort fun left right => !isMoreAlike text left right).take 3

end ModelAssist.Text
