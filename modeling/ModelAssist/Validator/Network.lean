import ModelAssist.Number.Notation

/-!
# Network faults

What can go wrong when a connection is made and used, or when a program is started.
-/

namespace ModelAssist

/-- What goes wrong with a connection or with the start of a program. -/
inductive NetworkFault where
  /-- The system says what went wrong, with a number unless it has none. -/
  | system (number : Option Int) (text : String)
  /-- The time for the exchange is over. -/
  | deadline
deriving DecidableEq, Repr, Inhabited

namespace NetworkFault

/-- Nobody listens. -/
def refused : NetworkFault := .system (some 111) "Connection refused"

/-- What is said about a fault. -/
def message : NetworkFault → String
  | .system (some number) text => "[Errno " ++ Number.intText number ++ "] " ++ text
  | .system none text => text
  | .deadline => ""

/-- The number of the fault that the other side does not react in time. -/
def timeoutNumber : Int := 110

/-- The numbers of the faults of a connection: a broken pipe, a connection that this side or the
other one dropped, one that was shut down, and one that was refused. -/
def connectionNumbers : List Int := [32, 103, 104, 108, 111]

/-- Holds of the faults which mean that an answer did not come in time. -/
def isTimeout : NetworkFault → Bool
  | .system number _ => number = some timeoutNumber
  | .deadline => true

/-- Holds of the faults which mean that nobody listens, or nobody does yet. -/
def isConnection (fault : NetworkFault) : Bool :=
  fault.isTimeout ||
    match fault with
    | .system (some number) _ => connectionNumbers.contains number
    | _ => false

end NetworkFault

end ModelAssist
