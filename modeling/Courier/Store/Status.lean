/-
How a stored message travels and how far its delivery has come.

    stored ──► processing ──► processed
                  ▲   │
                  │   ▼
                  └ failed

A dead letter is marked by a flag beside its status: a message that failed too often stays failed,
one that waited too often for its cause stays stored.
-/
namespace Courier

/-- How a stored message leaves the service, or how it came in. -/
inductive Delivery where
  /-- To a handler in the same process. -/
  | internal
  /-- To the external bus. -/
  | outbox
  /-- Received from the external bus and kept so that it is handled once. -/
  | inbox
deriving DecidableEq, Repr

namespace Delivery

def all : List Delivery := [.internal, .outbox, .inbox]

def text : Delivery → String
  | .internal => "internal"
  | .outbox => "outbox"
  | .inbox => "inbox"

def read? : String → Option Delivery
  | "internal" => some .internal
  | "outbox" => some .outbox
  | "inbox" => some .inbox
  | _ => none

end Delivery

/-- How far the delivery of a stored message has come. -/
inductive Status where
  | stored
  | processing
  | processed
  | failed
deriving DecidableEq, Repr

namespace Status

def all : List Status := [.stored, .processing, .processed, .failed]

def text : Status → String
  | .stored => "stored"
  | .processing => "processing"
  | .processed => "processed"
  | .failed => "failed"

def read? : String → Option Status
  | "stored" => some .stored
  | "processing" => some .processing
  | "processed" => some .processed
  | "failed" => some .failed
  | _ => none

/-- The edges of the delivery state machine. -/
def leadsTo : Status → Status → Bool
  | .stored, .processing => true
  | .processing, .processed => true
  | .processing, .failed => true
  | .failed, .processing => true
  | _, _ => false

end Status

inductive Refusal where
  | illegalEdge
  | retriesExhausted
  | deadLettered
deriving DecidableEq, Repr

def Refusal.message : Refusal → String
  | .illegalEdge => "illegal edge"
  | .retriesExhausted => "retries exhausted"
  | .deadLettered => "message is dead-lettered"

/-- A counter of attempts: 32 bits, and it stays at its greatest value. -/
abbrev Count := UInt32

def Count.greatest : Count := 4294967295

/-- One more, unless that is too many to count. -/
def Count.next (n : Count) : Count :=
  if n < Count.greatest then n + 1 else n

@[simp]
theorem Count.next_toNat (n : Count) : (Count.next n).toNat = min (n.toNat + 1) 4294967295 := by
  have hn := n.toNat_lt
  unfold Count.next Count.greatest
  split
  · rename_i h
    have h : n.toNat < 4294967295 := by simpa [UInt32.lt_iff_toNat_lt] using h
    rw [UInt32.toNat_add]
    simp
    omega
  · rename_i h
    have h : ¬ n.toNat < 4294967295 := by simpa [UInt32.lt_iff_toNat_lt] using h
    omega

end Courier
