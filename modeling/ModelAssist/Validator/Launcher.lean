/-!
# Launches

Who starts the validator.  Requests that find nobody listening share one launch: the first of them
begins it, and the others wait for it.  A launch goes on when the request that began it is given up.
A request that learns of a failed launch makes room for another one.
-/

namespace ModelAssist

/-- The number of a launch. -/
abbrev LaunchId := Nat

/-- What has become of a launch. -/
inductive LaunchState where
  | inFlight
  /-- The validator was started. -/
  | succeeded
  /-- The validator could not be started. -/
  | failed (reason : String)
deriving DecidableEq, Repr, Inhabited

/-- What is known about the start of the validator. -/
structure Launcher where
  /-- The launches by number. -/
  launches : List LaunchState
  /-- The launch that requests share. -/
  current : Option LaunchId
  /-- Set when a process of the validator is known. -/
  isStarted : Bool
deriving DecidableEq, Repr, Inhabited

/-- What a request that found nobody listening has to do. -/
inductive LaunchStep where
  /-- It goes on, as the validator was started. -/
  | ready
  /-- It waits for a launch. -/
  | await (launch : LaunchId)
  /-- It begins a launch and waits for it. -/
  | begin (launch : LaunchId)
deriving DecidableEq, Repr, Inhabited

namespace Launcher

/-- The launcher of a validator that was never started. -/
def initial : Launcher := ⟨[], none, false⟩

/-- The launcher after a request that found nobody listening, and what this has to do. -/
def request (launcher : Launcher) : Launcher × LaunchStep :=
  if launcher.isStarted then (launcher, .ready)
  else
    match launcher.current with
    | some launch => (launcher, .await launch)
    | none =>
      let launch := launcher.launches.length
      ({ launcher with
          launches := launcher.launches ++ [.inFlight]
          current := some launch },
        .begin launch)

/-- The launcher after a launch ended. -/
def finish (launcher : Launcher) (launch : LaunchId) (outcome : Except String Unit) : Launcher :=
  match outcome with
  | .ok () =>
    { launcher with
      launches := launcher.launches.set launch .succeeded
      isStarted := true }
  | .error reason => { launcher with launches := launcher.launches.set launch (.failed reason) }

/-- What has become of a launch. -/
def stateOf (launcher : Launcher) (launch : LaunchId) : LaunchState :=
  launcher.launches.getD launch .inFlight

/-- The launcher after a request learned what became of a launch, and what it learned. -/
def collect (launcher : Launcher) (launch : LaunchId) : Launcher × Except String Unit :=
  match launcher.stateOf launch with
  | .failed reason => ({ launcher with current := none }, .error reason)
  | _ => (launcher, .ok ())

end Launcher

end ModelAssist
