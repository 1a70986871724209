import Courier.Envelope.Basic
import Courier.Error
import Courier.Json.Fields
/-
Probes: a message type made for watching deliveries, and a handler that keeps what it is given and
fails as it was told.
-/
namespace Courier

/-- A message that says where it comes from. -/
structure Probe where
  key : String
  n : Int64
deriving DecidableEq, Repr

namespace Probe

def toJson (probe : Probe) : Json :=
  .obj [("key", .str probe.key), ("n", .int probe.n.toInt)]

def ofJson? (value : Json) : Option Probe :=
  match value.record? ["key", "n"] 2 with
  | some [key, n] => do
      let key ← neededField? Json.string? key
      let n ← neededField? Json.int64? n
      return ⟨key, n⟩
  | _ => none

instance : Message Probe where
  typeName := "Probe"
  toJson := toJson
  ofJson? := ofJson?

end Probe

/-- A probe that was handled. -/
structure ProbeCall where
  probe : Probe
  messageId : MessageId
deriving DecidableEq, Repr

/-- The handler of probes: what it has seen, and what its next calls end in. -/
structure ProbeHandler where
  calls : List ProbeCall
  outcomes : List (Option MessagingError)
deriving DecidableEq

namespace ProbeHandler

def name : String := "ProbeHandler"

def idle : ProbeHandler := ⟨[], []⟩

/-- Handle a probe: the next planned outcome, or success when none is planned. -/
def handle (handler : ProbeHandler) (probe : Envelope Probe) :
    Except MessagingError Unit × ProbeHandler :=
  let calls := handler.calls ++ [⟨probe.message, probe.metadata.messageId⟩]
  match handler.outcomes with
  | [] => (.ok (), ⟨calls, []⟩)
  | none :: rest => (.ok (), ⟨calls, rest⟩)
  | some error :: rest => (.error error, ⟨calls, rest⟩)

end ProbeHandler

end Courier
