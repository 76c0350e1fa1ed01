import ModelAssist.Exchange.Files
import ModelAssist.Shadow
import ModelAssist.Validator.Script

/-!
# Scripts from other programs

Scripted surroundings that are handed over as lists of records, and the trace of what was done in
them.
-/

namespace ModelAssist

/-- The fault with a short name. -/
def NetworkFault.ofName? : String → Option NetworkFault
  | "refused" => some .refused
  | "reset" => some (.system (some 104) "Connection reset by peer")
  | "pipe" => some (.system (some 32) "Broken pipe")
  | "aborted" => some (.system (some 103) "Software caused connection abort")
  | "timedout" => some (.system (some 110) "Connection timed out")
  | "denied" => some (.system (some 13) "Permission denied")
  | "missing" => some (.system (some 2) "No such file or directory")
  | "noroute" => some (.system (some 113) "No route to host")
  | _ => none

/-- The fault that a field names. -/
def NetworkFault.at? (value : Value) (name : String) : Option NetworkFault :=
  (value.text? name).bind ofName?

/-- What happens to a connection, by a record. -/
def ConnectionStep.ofValue (value : Value) : ConnectionStep where
  connectSeconds := (value.get "connect_delay").asFloat
  connectFault := NetworkFault.at? value "error"
  writeFault := NetworkFault.at? value "drain_error"
  showsEnd := !value.has "eof" || (value.get "eof").asFlag
  replySeconds := (value.get "delay").asFloat
  readFault := NetworkFault.at? value "read_error"
  reply :=
    match value.text? "hex" with
    | some digits => bytesOfHexadecimal digits.toList
    | none => Text.utf8 (value.get "reply").asText.toList
  closeFault := NetworkFault.at? value "close_error"

/-- What happens to the start of a program, by a record. -/
def StartStep.ofValue (value : Value) : StartStep where
  seconds := (value.get "delay").asFloat
  fault := NetworkFault.at? value "error"

/-- The surroundings that a record describes. -/
def Surround.ofValue (value : Value) : Surround :=
  Surround.initial ((value.listAt "net").map ConnectionStep.ofValue)
    ((value.listAt "java").map StartStep.ofValue)

/-- What a shadow is made of, by a record; the unsaved text of one file may be out of reach.  A
cancellation after a count of files has the given reason. -/
def ShadowRequest.ofValue (value : Value) (failing : Option Path) (reason : String) :
    ShadowRequest where
  document := Path.ofText (value.get "path").asText
  text := (value.get "text").asText
  reachable := (value.get "reachable").asTexts.map Path.ofText
  unsaved := fun path =>
    if some path = failing then .error "overlay failed"
    else .ok ((value.get "overlay").text? path.text)
  cancelled := fun count =>
    (value.given? "cancel_after").bind fun limit =>
      if limit.asNat ≤ count then some reason else none

/-- The directory of temporary files. -/
def temporaryDirectory : Path := ⟨.root, ["tmp"]⟩

/-- An event of a trace as records; a connection may be preceded by the temporary files. -/
def NetworkEvent.toValues (withFiles : Bool) : NetworkEvent → List Value
  | .connect address moment files =>
    (if withFiles then [.ofFields [("shadow", files.toValue temporaryDirectory)]] else []) ++
      [.ofFields [("connect", .text address), ("at", .ofNat (Span.toMilliseconds moment))]]
  | .sent request => [.ofFields [("sent", .text request)]]
  | .ended => [.ofFields [("eof", .bool true)]]
  | .closed => [.ofFields [("closed", .bool true)]]
  | .started command moment =>
    [.ofFields [("exec", .ofTexts command), ("at", .ofNat (Span.toMilliseconds moment))]]

/-- The trace of surroundings as a list of records. -/
def Surround.traceValue (surround : Surround) (withFiles : Bool) : Value :=
  .list (surround.trace.flatMap (NetworkEvent.toValues withFiles))

end ModelAssist
