import Courier.Envelope.Builder
/-
Domain events as aggregates raise them.
-/
namespace Courier

/-- An event with the time at which, and the place in the order in which, it was raised. -/
structure RaisedEvent (ε : Type) where
  event : ε
  raisedAt : Instant
  sequence : Nat
deriving DecidableEq

/-- Raised before, or at the same time with a sequence number that is not greater. -/
def RaisedEvent.notAfter {ε : Type} (a b : RaisedEvent ε) : Bool :=
  if a.raisedAt = b.raisedAt then decide (a.sequence ≤ b.sequence)
  else decide (a.raisedAt ≤ b.raisedAt)

/-- Events in the order in which they were raised: by time, then by sequence number. -/
def raiseOrder {ε : Type} (events : List (RaisedEvent ε)) : List (RaisedEvent ε) :=
  events.mergeSort RaisedEvent.notAfter

/-- The events that an aggregate has raised and nobody has taken yet. -/
structure EventRecorder (ε : Type) where
  pending : List (RaisedEvent ε)
  nextSequence : Nat
deriving DecidableEq

namespace EventRecorder

variable {ε : Type}

def empty : EventRecorder ε := ⟨[], 0⟩

def record (recorder : EventRecorder ε) (event : ε) (now : Instant) : EventRecorder ε where
  pending := recorder.pending ++ [⟨event, now, recorder.nextSequence⟩]
  nextSequence := recorder.nextSequence + 1

def isEmpty (recorder : EventRecorder ε) : Bool :=
  recorder.pending.isEmpty

/-- Take the pending events; sequence numbers go on. -/
def take (recorder : EventRecorder ε) : List (RaisedEvent ε) × EventRecorder ε :=
  (recorder.pending, { recorder with pending := [] })

end EventRecorder

end Courier
