import Courier.Store.Status
import Courier.Time.Instant
/-
Capped exponential backoff: before the n-th retry the delay is `base * 2 ^ (n - 1)`, at most `cap`.
-/
namespace Courier

/-- How delays grow. -/
structure Backoff where
  base : Span
  cap : Span
deriving DecidableEq, Repr

namespace Backoff

/-- A power of two that 32 bits hold. -/
def doubling? (exponent : Nat) : Option Nat :=
  if exponent < 32 then some (Nat.pow 2 exponent) else none

/-- The delay after so many failures. -/
def delay (backoff : Backoff) (attempt : Count) : Span :=
  if attempt = 0 then Span.zero
  else
    match (doubling? (attempt.toNat - 1)).bind backoff.base.times? with
    | some grown => grown.shorter backoff.cap
    | none => backoff.cap

/-- When a message that has just failed for the `attempt`-th time may be tried again. -/
def nextAttemptAt (backoff : Backoff) (now : Instant) (attempt : Count) : Instant :=
  now.after (backoff.delay attempt)

end Backoff

end Courier
