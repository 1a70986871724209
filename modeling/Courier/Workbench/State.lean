import Courier.Order.Registration
import Courier.Order.Summary
import Courier.Program.Basic
import Courier.Publishing.MemoryBus
import Courier.Publishing.Workers
import Courier.Workbench.Counters
import Courier.Workbench.Fault
import Courier.Workbench.Probe
/-
The workbench: a whole service in memory, with a clock that is moved by hand, identifiers that count
up, and faults where they are planned.  It answers the calls of programs one at a time.
-/
namespace Courier

/-- The commands that the handlers of the workbench take. -/
inductive Command where
  | updateSummary (update : SummaryUpdate)
  | probe (probe : Probe)
deriving DecidableEq, Repr

/-- The external bus in use. -/
inductive Transport where
  | memory
  /-- Takes everything and keeps nothing. -/
  | log
deriving DecidableEq, Repr

structure Workbench where
  clock : Instant
  /-- How many identifiers were taken. -/
  minted : Nat
  store : Store
  faults : List Fault
  transport : Transport
  bus : MemoryBus
  summaries : OrderSummaries
  probes : ProbeHandler
  counters : Counters

namespace Workbench

def start (time : Instant) : Workbench where
  clock := time.onClock
  minted := 0
  store := Store.empty
  faults := []
  transport := .memory
  bus := MemoryBus.empty
  summaries := OrderSummaries.empty
  probes := ProbeHandler.idle
  counters := Counters.empty

def registry : Registry Command :=
  (Registry.empty.registerOrders .updateSummary).registerHandler Probe ProbeHandler.name .probe

/-- The n-th identifier, `00000000-0000-4000-8000-` and n in twelve digits. -/
def identifier (n : Nat) : Uuid :=
  Uuid.ofNat (0x00000000000040008000000000000000 + n)

/-- Carry a call on the store out, unless a fault meets it. -/
def onStore {α : Type} (bench : Workbench) (point : FaultPoint) (expected : Option Status)
    (touched : Option RowId) (step : Store → Instant → Store × Except StoreError α) :
    Except StoreError α × Workbench :=
  let (mode, faults) := strike point expected bench.faults
  let bench := { bench with faults := faults }
  let carryOut (store : Store) : Except StoreError α × Workbench :=
    let (store, answer) := step store bench.clock
    (answer, { bench with store := store })
  match mode with
  | none => carryOut bench.store
  | some .fail => (.error point.failure, bench)
  | some .touch =>
      match touched.bind bench.store.get? with
      | some row => carryOut (bench.store.swap (Change.of row)).1
      | none => carryOut bench.store
  | some (.race tx) =>
      match bench.store.commit tx with
      | .ok store => carryOut store
      | .error error => (.error error, bench)

def handle (bench : Workbench) (command : Envelope Command) :
    Except MessagingError Unit × Workbench :=
  match command.message with
  | .updateSummary update =>
      (.ok (), { bench with
        summaries := bench.summaries.apply update command.metadata.createdAt })
  | .probe probe =>
      let (outcome, probes) := bench.probes.handle ⟨probe, command.metadata⟩
      (outcome, { bench with probes := probes })

def publish (bench : Workbench) (routingKey : String) (envelope : RawEnvelope) :
    Except BusError Unit × Workbench :=
  match bench.transport with
  | .log => (.ok (), bench)
  | .memory =>
      let (outcome, bus) := bench.bus.publish routingKey envelope
      (outcome, { bench with bus := bus })

/-- A committed store, or the store as it was. -/
def commitStep (tx : Transaction) (store : Store) (_ : Instant) : Store × Except StoreError Unit :=
  match store.commit tx with
  | .ok committed => (committed, .ok ())
  | .error error => (store, .error error)

def answer : (call : Call Command) → Workbench → call.Answer × Workbench
  | .begin, bench => bench.onStore .begin none none fun store _ => (store, .ok Transaction.empty)
  | .get id, bench => bench.onStore .get none none fun store _ => (store, .ok (store.get? id))
  | .find filter, bench =>
      bench.onStore .find none none fun store _ => (store, .ok (store.find filter))
  | .due query, bench => bench.onStore .due none none fun store _ => (store, .ok (store.due query))
  | .swap change, bench =>
      bench.onStore .swap (some change.expectedStatus) (some change.id) fun store _ =>
        store.swap change
  | .outgoing id, bench =>
      bench.onStore .outgoing none none fun store _ => (store, .ok (store.outgoingStatuses id))
  | .document collection key, bench =>
      bench.onStore .document none none fun store _ =>
        (store, .ok (store.document? collection key))
  | .stage tx draft, bench =>
      bench.onStore .stage none none fun store now => store.stage tx draft now
  | .documentIn tx collection key, bench =>
      bench.onStore .documentIn none none fun store _ =>
        (store, .ok (store.documentIn? tx collection key))
  | .saveDocument tx collection key body expected, bench =>
      bench.onStore .saveDocument none none fun store now =>
        (store, store.saveDocument tx collection key body expected now)
  | .commit tx, bench => bench.onStore .commit none none (commitStep tx)
  | .publish routingKey envelope, bench => bench.publish routingKey envelope
  | .handle command, bench => bench.handle command
  | .now, bench => (bench.clock, bench)
  | .mint, bench => (identifier (bench.minted + 1), { bench with minted := bench.minted + 1 })
  | .count sample, bench => ((), { bench with counters := bench.counters.count sample })
  | .samples, bench => (bench.counters.lines, bench)

/-- Run a program on the workbench. -/
def perform {α : Type} (bench : Workbench) (program : Program Command α) : α × Workbench :=
  program.run answer bench

/-- Enough ticks for a publisher to run out of full batches: each one moves a row on or meets a
fault. -/
def tickFuel (bench : Workbench) (settings : PublisherSettings) : Nat :=
  (bench.store.rows.length + 1) * (2 * settings.maxRetries.toNat + 2) +
    bench.faults.foldl (fun total fault => total + fault.count) 0 + 2

/-- Let workers run until each has woken up so many times. -/
def runWorkers (bench : Workbench) (publisher : Publisher Command) (workers wakeUps : Nat) :
    Workbench :=
  (bench.perform
    (publisher.runWorkers (bench.tickFuel publisher.settings) workers wakeUps)).2

/-- Start workers for a time and stop them; those that are stopped at once never wake up.  Answers
the counters while they run, and the workbench after they have stopped. -/
def employ (bench : Workbench) (publisher : Publisher Command) (count : Nat) (time : Span) :
    Counters × Workbench :=
  let workers := max count 1
  let running := { bench with counters := bench.counters.set workersGauge workers }
  let wakeUps := if time.nanos = 0 then 0 else publisher.settings.wakeUps time
  let done := running.runWorkers publisher workers wakeUps
  (done.counters, { done with counters := done.counters.set workersGauge 0 })

end Workbench

end Courier
