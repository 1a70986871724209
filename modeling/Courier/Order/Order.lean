import Courier.Json.Fields
import Courier.Reaction.Event
import Courier.Text.Blank
/-
Orders.  An order is placed and may be cancelled once; each of the two raises a domain event.
-/
namespace Courier

/-- The number of an order; its document has it as the key. -/
structure OrderId where
  value : UInt64
deriving DecidableEq, Repr

def OrderId.text (id : OrderId) : String :=
  toString id.value.toNat

def OrderId.toJson (id : OrderId) : Json :=
  .ofNat id.value.toNat

def OrderId.ofJson? (value : Json) : Option OrderId :=
  value.uint64?.map OrderId.mk

/-- An order is placed, and then perhaps cancelled. -/
inductive OrderState where
  | placed
  | cancelled
deriving DecidableEq, Repr

namespace OrderState

def text : OrderState → String
  | .placed => "Placed"
  | .cancelled => "Cancelled"

def read? : String → Option OrderState
  | "Placed" => some .placed
  | "Cancelled" => some .cancelled
  | _ => none

def canCancel : OrderState → Bool
  | .placed => true
  | .cancelled => false

def toJson (state : OrderState) : Json :=
  .str state.text

def ofJson? (value : Json) : Option OrderState :=
  value.name?.bind read?

end OrderState

/-- A rule of business that was broken. -/
inductive OrderError where
  | customerRequired
  | invalidTotal (cents : Int64)
  | invalidStateTransition (current : OrderState) (action : String)
  | alreadyPlaced (id : OrderId)
deriving DecidableEq, Repr

def OrderError.message : OrderError → String
  | .customerRequired => "Customer is required"
  | .invalidTotal cents =>
      "Invalid total: " ++ toString cents.toInt ++ " (must be greater than 0)"
  | .invalidStateTransition current action =>
      "Invalid state transition: cannot " ++ action ++ " from " ++ current.text ++ " state"
  | .alreadyPlaced id => "Order " ++ id.text ++ " already placed"

/-- What happens to orders. -/
inductive OrderEvent where
  | placed (id : OrderId) (customer : String) (totalCents : Int64)
  | cancelled (id : OrderId) (reason : String)
deriving DecidableEq, Repr

namespace OrderEvent

def orderId : OrderEvent → OrderId
  | .placed id _ _ => id
  | .cancelled id _ => id

instance : DomainEvent OrderEvent where
  eventType
    | .placed _ _ _ => "OrderPlaced"
    | .cancelled _ _ => "OrderCancelled"

end OrderEvent

/-- An order.  `version` counts the writes of its document, 0 if it was never saved. -/
structure Order where
  id : OrderId
  customer : String
  totalCents : Int64
  state : OrderState
  placedAt : Instant
  cancelReason : Option String
  version : Int
  events : EventRecorder OrderEvent
deriving DecidableEq

namespace Order

def place (id : OrderId) (customer : String) (totalCents : Int64) (now : Instant) :
    Except OrderError Order :=
  if allBlank customer then .error .customerRequired
  else if totalCents ≤ 0 then .error (.invalidTotal totalCents)
  else .ok {
    id := id
    customer := customer
    totalCents := totalCents
    state := .placed
    placedAt := now
    cancelReason := none
    version := 0
    events := EventRecorder.empty.record (.placed id customer totalCents) now }

def cancel (order : Order) (reason : String) (now : Instant) : Except OrderError Order :=
  if order.state.canCancel then .ok { order with
    state := .cancelled
    cancelReason := some reason
    events := order.events.record (.cancelled order.id reason) now }
  else .error (.invalidStateTransition order.state "cancel")

def takeEvents (order : Order) : List (RaisedEvent OrderEvent) × Order :=
  (order.events.take.1, { order with events := order.events.take.2 })

def fieldNames : List String :=
  ["id", "customer", "total_cents", "state", "placed_at", "cancel_reason"]

def toJson (order : Order) : Json :=
  .obj [("id", order.id.toJson), ("customer", .str order.customer),
    ("total_cents", .int order.totalCents.toInt), ("state", order.state.toJson),
    ("placed_at", .str order.placedAt.text), ("cancel_reason", .ofText? order.cancelReason)]

/-- The order of a document; it has raised nothing yet. -/
def ofJson? (value : Json) : Option Order :=
  match value.record? fieldNames 5 with
  | some [id, customer, totalCents, state, placedAt, cancelReason] => do
      let id ← neededField? OrderId.ofJson? id
      let customer ← neededField? Json.string? customer
      let totalCents ← neededField? Json.int64? totalCents
      let state ← neededField? OrderState.ofJson? state
      let placedAt ← neededField? (fun value => value.string?.bind Instant.read?) placedAt
      let cancelReason ← optionalField? Json.string? cancelReason
      return ⟨id, customer, totalCents, state, placedAt, cancelReason, 0, EventRecorder.empty⟩
  | _ => none

end Order

end Courier
