import Courier.Custody.Custodian
import Courier.Order.Messages
import Courier.Reaction.Dispatcher
/-
The order desk runs each command on orders as one unit of work: the order's document and the
messages that its events stage are committed together or not at all.
-/
namespace Courier

/-- A failure of a command on orders. -/
inductive DeskError where
  | order (error : OrderError)
  | notFound (id : OrderId)
  | messaging (error : MessagingError)
  | store (error : StoreError)
  /-- The order's document is not an order. -/
  | malformedDocument
deriving DecidableEq, Repr

def DeskError.message : DeskError → String
  | .order error => "Order error: " ++ error.message
  | .notFound id => "Order not found: " ++ id.text
  | .messaging error => "Messaging error: " ++ error.message
  | .store error => "Store error: " ++ error.message
  | .malformedDocument => "Serialization error: the document is not an order"

namespace OrderReaction

variable {κ : Type}

/-- Tell other services that an order was placed. -/
def publishPlaced : Reaction κ OrderEvent where
  name := "PublishOrderPlaced"
  run ctx event :=
    match event.message with
    | .placed id customer totalCents => do
        let _ ← Staging.stageEvent ctx (OrderPlaced.mk id customer totalCents)
        return ()
    | .cancelled _ _ => return ()

/-- Tell other services that an order was cancelled. -/
def publishCancelled : Reaction κ OrderEvent where
  name := "PublishOrderCancelled"
  run ctx event :=
    match event.message with
    | .placed _ _ _ => return ()
    | .cancelled id reason => do
        let _ ← Staging.stageEvent ctx (OrderCancelled.mk id reason)
        return ()

/-- The update of an order's summary after an event. -/
def summaryUpdate : OrderEvent → SummaryUpdate
  | .placed id customer totalCents => ⟨id, .placed, some customer, some totalCents⟩
  | .cancelled id _ => ⟨id, .cancelled, none, none⟩

/-- Have the order's summary brought up to date. -/
def scheduleSummary : Reaction κ OrderEvent where
  name := "ScheduleReadModelUpdate"
  run ctx event := do
    let _ ← Staging.schedule ctx [summaryUpdate event.message]
    return ()

/-- The reactions to order events. -/
def all : List (Reaction κ OrderEvent) :=
  [publishPlaced, publishCancelled, scheduleSummary]

end OrderReaction

namespace OrderDesk

variable {κ : Type}

/-- The collection of the order documents. -/
def collection : String := "orders"

def ofDocument (document : Document) : Except DeskError Order :=
  match Order.ofJson? document.body with
  | some order => .ok { order with version := document.version }
  | none => .error .malformedDocument

/-- The order of a document that may be missing. -/
def ofDocument? : Option Document → Except DeskError (Option Order)
  | none => .ok none
  | some document => (ofDocument document).map some

def load (tx : Transaction) (id : OrderId) : Attempt κ DeskError (Option Order) := do
  let document ← Attempt.calling .store
    (Program.perform (.documentIn tx collection id.text))
  Attempt.ofExcept (ofDocument? document)

/-- Save an order inside a transaction, against the version it was loaded at. -/
def save (tx : Transaction) (order : Order) : Attempt κ DeskError (Transaction × Order) := do
  let (tx, document) ← Attempt.calling .store
    (Program.perform (.saveDocument tx collection order.id.text order.toJson order.version))
  return (tx, { order with version := document.version })

/-- Save an order as it is; only the version of its document grows. -/
def resave (unit : UnitOfWork) (id : OrderId) : Attempt κ DeskError (Option Order × UnitOfWork) := do
  match ← load unit.tx id with
  | none => return (none, unit)
  | some order =>
      let (tx, order) ← save unit.tx order
      return (some order, { unit with tx := tx })

/-- Dispatch an order's events, save it and commit. -/
def conclude (unit : UnitOfWork) (order : Order) : Attempt κ DeskError Order := do
  let (events, order) := order.takeEvents
  let (_, unit) ← Attempt.calling .messaging (unit.dispatch OrderReaction.all events).run
  let (tx, order) ← save unit.tx order
  let _ ← Attempt.calling .messaging ({ unit with tx := tx } : UnitOfWork).commit.run
  return order

def place (ctx : Context) (id : OrderId) (customer : String) (totalCents : Int64) :
    Attempt κ DeskError Order := do
  let unit ← Attempt.calling .messaging (UnitOfWork.begin ctx).run
  match ← load unit.tx id with
  | some _ => throw (.order (.alreadyPlaced id))
  | none =>
      let now ← Program.now κ
      match Order.place id customer totalCents now with
      | .ok order => conclude unit order
      | .error error => throw (.order error)

def cancel (ctx : Context) (id : OrderId) (reason : String) : Attempt κ DeskError Order := do
  let unit ← Attempt.calling .messaging (UnitOfWork.begin ctx).run
  match ← load unit.tx id with
  | none => throw (.notFound id)
  | some order =>
      let now ← Program.now κ
      match order.cancel reason now with
      | .ok order => conclude unit order
      | .error error => throw (.order error)

def get (id : OrderId) : Attempt κ DeskError (Option Order) := do
  let document ← Attempt.calling .store (Program.perform (.document collection id.text))
  Attempt.ofExcept (ofDocument? document)

/-- The rows of one correlation, oldest first. -/
def messagesFor (ctx : Context) : Attempt κ DeskError (List Row) :=
  Attempt.calling .messaging (Custodian.find { correlationId := some ctx.correlationId }).run

end OrderDesk

end Courier
