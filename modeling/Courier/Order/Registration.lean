import Courier.Handling.Registry
import Courier.Order.Messages
/-
The message types of orders in a registry.
-/
namespace Courier

/-- Register every message type that orders send; updates of summaries become commands. -/
def Registry.registerOrders {κ : Type} (registry : Registry κ) (command : SummaryUpdate → κ) :
    Registry κ :=
  ((registry.register OrderPlaced).register OrderCancelled).registerHandler SummaryUpdate
    "UpdateOrderReadModelHandler" command

end Courier
