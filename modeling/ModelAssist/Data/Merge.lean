import ModelAssist.Data.Value

/-!
# Merging records

A record laid over another one: the entries of both, entry by entry.  Where both have a record under
a key, the two are merged in turn; else the upper value hides the lower one.
-/

namespace ModelAssist

mutual

/-- A value laid over a lower one. -/
def Value.over (lower : Value) : Value → Value
  | .record upper =>
    match lower with
    | .record entries => .record (Entries.over entries upper)
    | _ => .record upper
  | upper => upper

/-- The entries of a record laid over lower ones. -/
def Entries.over (lower : List (Key × Value)) : List (Key × Value) → List (Key × Value)
  | [] => lower
  | (key, upper) :: rest =>
    let merged :=
      match Entries.get? lower key with
      | some value => value.over upper
      | none => upper
    Entries.over (Entries.insert lower key merged) rest

end

end ModelAssist
