import Courier.Envelope.Basic
import Courier.Error
/-
External buses inside the process: one that keeps what it is given and can be told to fail, and one
that takes everything and keeps nothing.
-/
namespace Courier

/-- An envelope that a bus has taken over. -/
structure Published where
  routingKey : String
  envelope : RawEnvelope
deriving DecidableEq

/-- A bus that keeps what was published. -/
structure MemoryBus where
  published : List Published
  /-- How many of the next publications fail. -/
  failuresLeft : Nat
  /-- Every publication fails. -/
  unavailable : Bool
deriving DecidableEq

namespace MemoryBus

def empty : MemoryBus := ⟨[], 0, false⟩

/-- Take an envelope over, or fail as told. -/
def publish (bus : MemoryBus) (routingKey : String) (envelope : RawEnvelope) :
    Except BusError Unit × MemoryBus :=
  if bus.unavailable then (.error (.transportUnavailable "bus is offline"), bus)
  else if 0 < bus.failuresLeft then
    (.error (.transportUnavailable "injected transport failure"),
      { bus with failuresLeft := bus.failuresLeft - 1 })
  else (.ok (), { bus with published := bus.published ++ [⟨routingKey, envelope⟩] })

end MemoryBus

end Courier
