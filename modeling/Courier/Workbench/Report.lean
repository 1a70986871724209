import Courier.Snapshot.Rows
import Courier.Workbench.State
/-
The JSON forms of what a workbench holds.
-/
namespace Courier

instance : OfJson Probe := ⟨Probe.ofJson?⟩

instance : ToJson ProbeCall where
  toJson call :=
    .obj [("key", toJson call.probe.key), ("n", toJson call.probe.n),
      ("message_id", toJson call.messageId)]

instance : ToJson Published where
  toJson sent :=
    .obj [("routing_key", toJson sent.routingKey), ("envelope", sent.envelope.toJson)]

namespace Workbench

/-- How much there is of everything. -/
def counts (bench : Workbench) : Json :=
  .obj [("messages", toJson bench.store.rows.length),
    ("documents", toJson bench.store.documents.length),
    ("published", toJson bench.bus.published.length),
    ("calls", toJson bench.probes.calls.length), ("applied", toJson bench.summaries.applied)]

/-- Every row, oldest first, every publication and the counts. -/
def dump (bench : Workbench) : Json :=
  .obj [("rows", toJson (bench.store.find {})),
    ("published", toJson (bench.bus.published.map fun sent =>
      [sent.routingKey, sent.envelope.metadata.messageId.text])),
    ("counts", bench.counts)]

end Workbench

end Courier
