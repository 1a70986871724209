import Courier.Publishing.Publisher
/-
Publishers that run for a while.  A publisher wakes up, ticks until a batch is not full, and sleeps
for its poll interval.
-/
namespace Courier

/-- How often a publisher wakes up in a time: at its start, and after each poll interval as long as
the time has not passed. -/
def PublisherSettings.wakeUps (settings : PublisherSettings) (time : Span) : Nat :=
  let interval := max settings.pollInterval.nanos 1000000
  max 1 ((time.nanos + interval - 1) / interval)

namespace Publisher

variable {κ : Type}

/-- Several workers with the same settings wake up together, one after another. -/
def wakeAll (publisher : Publisher κ) (fuel : Nat) : Nat → Program κ Unit
  | 0 => return ()
  | workers + 1 => do
      publisher.drain fuel
      publisher.wakeAll fuel workers

/-- Let workers wake up so many times. -/
def runWorkers (publisher : Publisher κ) (fuel workers : Nat) : Nat → Program κ Unit
  | 0 => return ()
  | wakeUps + 1 => do
      publisher.wakeAll fuel workers
      publisher.runWorkers fuel workers wakeUps

end Publisher

end Courier
