import Courier.Envelope.Basic
import Courier.Order.Order
/-
The messages that orders send: integration events for other services, and a command for the
summaries in this one.
-/
namespace Courier

/-- Tells other services that an order was placed. -/
structure OrderPlaced where
  orderId : OrderId
  customer : String
  totalCents : Int64
deriving DecidableEq, Repr

/-- Tells other services that an order was cancelled. -/
structure OrderCancelled where
  orderId : OrderId
  reason : String
deriving DecidableEq, Repr

/-- Brings the summary of an order up to date with one change. -/
structure SummaryUpdate where
  orderId : OrderId
  state : OrderState
  customer : Option String
  totalCents : Option Int64
deriving DecidableEq, Repr

namespace OrderPlaced

def toJson (event : OrderPlaced) : Json :=
  .obj [("order_id", event.orderId.toJson), ("customer", .str event.customer),
    ("total_cents", .int event.totalCents.toInt)]

def ofJson? (value : Json) : Option OrderPlaced :=
  match value.record? ["order_id", "customer", "total_cents"] 3 with
  | some [orderId, customer, totalCents] => do
      let orderId ← neededField? OrderId.ofJson? orderId
      let customer ← neededField? Json.string? customer
      let totalCents ← neededField? Json.int64? totalCents
      return ⟨orderId, customer, totalCents⟩
  | _ => none

instance : Message OrderPlaced where
  typeName := "OrderPlacedV1"
  toJson := toJson
  ofJson? := ofJson?

end OrderPlaced

namespace OrderCancelled

def toJson (event : OrderCancelled) : Json :=
  .obj [("order_id", event.orderId.toJson), ("reason", .str event.reason)]

def ofJson? (value : Json) : Option OrderCancelled :=
  match value.record? ["order_id", "reason"] 2 with
  | some [orderId, reason] => do
      let orderId ← neededField? OrderId.ofJson? orderId
      let reason ← neededField? Json.string? reason
      return ⟨orderId, reason⟩
  | _ => none

instance : Message OrderCancelled where
  typeName := "OrderCancelledV1"
  toJson := toJson
  ofJson? := ofJson?

end OrderCancelled

namespace SummaryUpdate

/-- A member for a value that is there. -/
def memberOf? {α : Type} (key : String) (toJson : α → Json) : Option α → List (String × Json)
  | some value => [(key, toJson value)]
  | none => []

/-- Absent values are not written. -/
def toJson (update : SummaryUpdate) : Json :=
  .obj ([("order_id", update.orderId.toJson), ("state", update.state.toJson)] ++
    memberOf? "customer" Json.str update.customer ++
    memberOf? "total_cents" (fun cents => Json.int cents.toInt) update.totalCents)

def ofJson? (value : Json) : Option SummaryUpdate :=
  match value.record? ["order_id", "state", "customer", "total_cents"] 2 with
  | some [orderId, state, customer, totalCents] => do
      let orderId ← neededField? OrderId.ofJson? orderId
      let state ← neededField? OrderState.ofJson? state
      let customer ← optionalField? Json.string? customer
      let totalCents ← optionalField? Json.int64? totalCents
      return ⟨orderId, state, customer, totalCents⟩
  | _ => none

instance : Message SummaryUpdate where
  typeName := "UpdateOrderReadModel"
  toJson := toJson
  ofJson? := ofJson?

end SummaryUpdate

end Courier
