import Courier.Program.Call
import Courier.Table
/-
Counters, each a line of a name with its labels and a number.
-/
namespace Courier

/-- The name of a counter that counts by way of delivery. -/
def labelled (name : String) (delivery : Delivery) : String :=
  name ++ "\x7bdelivery_type=\"" ++ delivery.text ++ "\"\x7d"

/-- The counter that an event belongs to. -/
def Sample.counter : Sample → String
  | .staged delivery => labelled "messages_staged_total" delivery
  | .duplicateReceived => "inbox_duplicates_total"
  | .tickDone => "outbox_tick_duration_seconds_count"
  | .messageError => "outbox_message_errors_total"
  | .claimReclaimed => "outbox_claims_reclaimed_total"
  | .processed delivery => labelled "outbox_messages_processed_total" delivery
  | .retried => "outbox_messages_retried_total"
  | .deferred => "outbox_messages_deferred_total"
  | .claimLost => "outbox_claims_lost_total"
  | .deadLettered delivery => labelled "outbox_messages_dead_lettered_total" delivery

def workersGauge : String := "outbox_publisher_workers"

/-- All counters that were touched. -/
structure Counters where
  table : Table Nat
deriving DecidableEq

namespace Counters

def empty : Counters := ⟨Table.empty⟩

/-- Give a counter a value. -/
def set (counters : Counters) (name : String) (value : Nat) : Counters :=
  ⟨counters.table.insert name value⟩

def count (counters : Counters) (sample : Sample) : Counters :=
  counters.set sample.counter ((counters.table.get? sample.counter).getD 0 + 1)

/-- One line for each counter, in ascending order. -/
def lines (counters : Counters) : List String :=
  counters.table.entries.map fun entry => entry.1 ++ " " ++ toString entry.2

end Counters

end Courier
