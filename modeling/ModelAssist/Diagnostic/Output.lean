/-!
# Validator output

The validator writes problems between an opening and a closing mark into its ordinary output.
Splitting takes the two apart; a problem segment that is not closed runs to the end.
-/

namespace ModelAssist

/-- What the validator wrote. -/
structure ValidatorOutput where
  /-- The text outside all marks. -/
  ordinary : String
  /-- The text inside the marks. -/
  problems : String
deriving DecidableEq, Repr, Inhabited

namespace ValidatorOutput

/-- The mark that opens a problem segment. -/
def openingMark : List Char := ['E', 'R', 'R', 'O', 'R', '!', '!']

/-- The mark that closes a problem segment. -/
def closingMark : List Char := ['!', '!', 'E', 'R', 'R', 'O', 'R']

/-- The mark that ends the current kind of segment. -/
def nextMark (inside : Bool) : List Char :=
  if inside then closingMark else openingMark

/-- The characters outside and inside the marks of a text that starts inside a problem segment or
outside of one. -/
def separate (inside : Bool) (text : List Char) : List Char × List Char :=
  match text with
  | [] => ([], [])
  | char :: rest =>
    if (nextMark inside).isPrefixOf (char :: rest) then
      separate (!inside) (rest.drop 6)
    else
      let (ordinary, problems) := separate inside rest
      if inside then (ordinary, char :: problems) else (char :: ordinary, problems)
  termination_by text.length

/-- The two parts of what the validator wrote. -/
def split (written : String) : ValidatorOutput :=
  let (ordinary, problems) := separate false written.toList
  ⟨String.ofList ordinary, String.ofList problems⟩

end ValidatorOutput

end ModelAssist
