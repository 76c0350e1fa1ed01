import ModelAssist.Validator.Network

/-!
# Retries

How a request reaches a validator that may not be running yet.  If the first exchange fails because
nobody listens, the validator is started and the exchange is tried again a number of times, with a
pause after each failure; any other fault ends the request at once.
-/

namespace ModelAssist

/-- Why a request did not reach the validator. -/
inductive SendFault where
  /-- The validator could not be started. -/
  | notStarted (reason : String)
  /-- The validator could not be reached. -/
  | unreachable (reason : String)
  /-- The validator did not answer in time. -/
  | late
deriving DecidableEq, Repr, Inhabited

namespace Retry

variable {M : Type → Type} [Monad M] {Reply : Type}

/-- What is told when the last attempt failed for want of a listener. -/
def exhausted (last : NetworkFault) : SendFault :=
  if last.isTimeout then .late else .unreachable last.message

/-- Tries an exchange up to so many times, with a pause after each attempt that found nobody. -/
def attempts (exchange : M (Except NetworkFault Reply)) (pause : M Unit) :
    Nat → NetworkFault → M (Except SendFault Reply)
  | 0, last => return .error (exhausted last)
  | more + 1, _ => do
    match ← exchange with
    | .ok reply => return .ok reply
    | .error fault =>
      if fault.isConnection then
        pause
        attempts exchange pause more fault
      else return .error (.unreachable fault.message)

/-- Sends a request: one exchange, and if that finds nobody, the start of the validator and further
attempts. -/
def send (exchange : M (Except NetworkFault Reply)) (ensureStarted : M (Except String Unit))
    (pause : M Unit) (retries : Nat) : M (Except SendFault Reply) := do
  match ← exchange with
  | .ok reply => return .ok reply
  | .error fault =>
    if fault.isConnection then
      match ← ensureStarted with
      | .error reason => return .error (.notStarted reason)
      | .ok () => attempts exchange pause retries fault
    else return .error (.unreachable fault.message)

end Retry

end ModelAssist
