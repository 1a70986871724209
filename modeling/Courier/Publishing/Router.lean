import Courier.Handling.Registry
import Courier.Text.Underscored
/-
The router hands each stored message to the bus for its way of delivery: outgoing ones to the
external bus under a routing key, all others to the handlers in this process.
-/
namespace Courier

structure Router (κ : Type) where
  registry : Registry κ
  routingKeys : Table String

namespace Router

variable {κ : Type}

/-- The routing key that is set for a type, otherwise the type's name in underscored form. -/
def routingKey (router : Router κ) (typeName : String) : String :=
  (router.routingKeys.get? typeName).getD (underscored typeName)

/-- Restore the envelope of a row.  It has to name the row's type and, if that type is registered,
to decode as it. -/
def decode (router : Router κ) (row : Row) : Except MessagingError RawEnvelope := do
  let raw ← RawEnvelope.ofJson row.data
  if raw.typeName? = some row.dataType then
    if router.registry.isRegistered row.dataType then router.registry.decode raw
    return raw
  else throw (.typeMismatch row.dataType (raw.typeName?.getD ""))

/-- Hand an envelope over to the bus for a row's way of delivery. -/
def deliver (router : Router κ) (row : Row) (envelope : RawEnvelope) :
    Program κ (Except BusError Unit) :=
  match row.delivery with
  | .outbox => Program.perform (.publish (router.routingKey row.dataType) envelope)
  | .internal => router.registry.schedule [envelope]
  | .inbox => router.registry.schedule [envelope]

/-- A report that names the registered types and the routing keys. -/
def report (router : Router κ) : String :=
  "DeliveryRouter \x7b registry: " ++ router.registry.report ++ ", routing_keys: \x7b" ++
    ", ".intercalate (router.routingKeys.entries.map fun entry =>
      inQuotes entry.1 ++ ": " ++ inQuotes entry.2) ++ "\x7d, .. \x7d"

end Router

end Courier
