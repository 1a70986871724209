import Courier.Order.Summary
import Courier.Snapshot.Basic
/-
The JSON forms of orders, of their events and of their summaries.
-/
namespace Courier

instance : ToJson OrderId := ⟨OrderId.toJson⟩

instance : OfJson OrderId := ⟨OrderId.ofJson?⟩

instance : ToJson OrderState := ⟨OrderState.toJson⟩

/-- An event is an object with one member, named for its case. -/
instance : ToJson OrderEvent where
  toJson
    | .placed id customer totalCents =>
        .obj [("OrderPlaced", .obj [("order_id", toJson id), ("customer", toJson customer),
          ("total_cents", toJson totalCents)])]
    | .cancelled id reason =>
        .obj [("OrderCancelled", .obj [("order_id", toJson id), ("reason", toJson reason)])]

/-- An event is read from its fields beside the name of its case. -/
instance : OfJson OrderEvent where
  ofJson? value := do
    match value.get? "type" with
    | some (.str "OrderPlaced") =>
        return .placed (← value.field? "order_id") (← value.field? "customer")
          (← value.field? "total_cents")
    | some (.str "OrderCancelled") =>
        return .cancelled (← value.field? "order_id") (← value.field? "reason")
    | _ => none

instance {ε : Type} [OfJson ε] : OfJson (RaisedEvent ε) where
  ofJson? value := do
    return ⟨← value.field? "event", ← value.field? "raised_at", ← value.field? "sequence"⟩

instance : ToJson (RaisedEvent OrderEvent) where
  toJson raised :=
    .obj [("event", toJson raised.event),
      ("event_type", .str (DomainEvent.eventType raised.event)),
      ("order_id", toJson raised.event.orderId), ("raised_at", toJson raised.raisedAt),
      ("sequence", toJson raised.sequence)]

/-- An order with its version, and whether it has raised events. -/
instance : ToJson Order where
  toJson order :=
    .obj [("id", toJson order.id), ("customer", toJson order.customer),
      ("total_cents", toJson order.totalCents), ("state", toJson order.state),
      ("placed_at", toJson order.placedAt), ("cancel_reason", toJson order.cancelReason),
      ("version", toJson order.version), ("pending", toJson !order.events.isEmpty)]

instance : ToJson OrderSummary where
  toJson summary :=
    .obj [("order_id", toJson summary.orderId), ("customer", toJson summary.customer),
      ("total_cents", toJson summary.totalCents), ("state", toJson summary.state),
      ("updated_at", toJson summary.updatedAt)]

end Courier
