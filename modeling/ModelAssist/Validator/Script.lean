import ModelAssist.Concurrency.Process
import ModelAssist.Concurrency.Span
import ModelAssist.FileStore
import ModelAssist.Validator.Launcher
import ModelAssist.Validator.Network

/-!
# Scripted surroundings

A network and a system that behave as a script says: what happens to one connection after another,
and to one start of a program after another.  The last step of a script repeats.  A trace keeps
what was done.
-/

namespace ModelAssist

/-- What happens to a connection. -/
structure ConnectionStep where
  /-- How long it takes to connect. -/
  connectSeconds : Float := 0
  /-- Why no connection is made. -/
  connectFault : Option NetworkFault := none
  /-- Why nothing can be written. -/
  writeFault : Option NetworkFault := none
  /-- Set if the end of the request can be shown. -/
  showsEnd : Bool := true
  /-- How long the answer takes. -/
  replySeconds : Float := 0
  /-- Why the answer cannot be read. -/
  readFault : Option NetworkFault := none
  reply : List UInt8 := []
  /-- What goes wrong when the connection is closed. -/
  closeFault : Option NetworkFault := none
deriving Inhabited

/-- What happens to the start of a program. -/
structure StartStep where
  /-- How long it takes. -/
  seconds : Float := 0
  /-- Why the program cannot be started. -/
  fault : Option NetworkFault := none
deriving Inhabited

/-- What was done. -/
inductive NetworkEvent where
  /-- A connection was tried; the files were as given. -/
  | connect (address : String) (moment : Moment) (files : FileStore)
  | sent (request : String)
  /-- The end of a request was shown. -/
  | ended
  | closed
  | started (command : List String) (moment : Moment)
deriving Inhabited

/-- The surroundings of a validator client. -/
structure Surround where
  connections : List ConnectionStep
  /-- What happens to starts of programs. -/
  starts : List StartStep
  trace : List NetworkEvent
  /-- What is known about the start of the validator. -/
  launcher : Launcher
  /-- The tasks of the launches, by number. -/
  launchTasks : List TaskId
deriving Inhabited

namespace Surround

/-- Surroundings in which nothing was done yet; where a script is empty, nobody listens and every
program starts at once. -/
def initial (connections : List ConnectionStep) (starts : List StartStep) : Surround :=
  { connections := if connections.isEmpty then [{ connectFault := some .refused }] else connections
    starts
    trace := []
    launcher := Launcher.initial
    launchTasks := [] }

/-- The next step of a script, and the rest of it. -/
def nextStep {Step : Type} [Inhabited Step] : List Step → List Step × Step
  | [] => ([], default)
  | [step] => ([step], step)
  | step :: rest => (rest, step)

/-- The surroundings with one more event in the trace. -/
def record (surround : Surround) (event : NetworkEvent) : Surround :=
  { surround with trace := surround.trace ++ [event] }

/-- The surroundings after the next connection was taken, and what happens to it. -/
def takeConnection (surround : Surround) : Surround × ConnectionStep :=
  let (connections, step) := nextStep surround.connections
  ({ surround with connections }, step)

/-- The surroundings after the next start was taken, and what happens to it. -/
def takeStart (surround : Surround) : Surround × StartStep :=
  let (starts, step) := nextStep surround.starts
  ({ surround with starts }, step)

end Surround

end ModelAssist
