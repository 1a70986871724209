import Courier.Order.Messages
/-
Summaries of orders, kept up to date by commands.
-/
namespace Courier

/-- What readers see of an order. -/
structure OrderSummary where
  orderId : OrderId
  customer : Option String
  totalCents : Option Int64
  state : OrderState
  updatedAt : Instant
deriving DecidableEq

/-- All summaries in the order of their numbers, and how many updates were applied. -/
structure OrderSummaries where
  summaries : List OrderSummary
  applied : Nat
deriving DecidableEq

/-- A summary after an update; what the update leaves open stays. -/
def OrderSummary.apply (summary : OrderSummary) (update : SummaryUpdate) (time : Instant) :
    OrderSummary where
  orderId := summary.orderId
  customer := update.customer <|> summary.customer
  totalCents := update.totalCents <|> summary.totalCents
  state := update.state
  updatedAt := time

/-- The summary that an update of an unknown order starts from. -/
def SummaryUpdate.blank (update : SummaryUpdate) (time : Instant) : OrderSummary :=
  ⟨update.orderId, none, none, update.state, time⟩

namespace OrderSummaries

def empty : OrderSummaries := ⟨[], 0⟩

def get? (all : OrderSummaries) (id : OrderId) : Option OrderSummary :=
  all.summaries.find? (·.orderId == id)

/-- Apply an update in a list that is in the order of the numbers. -/
def applyTo (update : SummaryUpdate) (time : Instant) : List OrderSummary → List OrderSummary
  | [] => [(update.blank time).apply update time]
  | summary :: rest =>
      if update.orderId.value < summary.orderId.value then
        (update.blank time).apply update time :: summary :: rest
      else if summary.orderId = update.orderId then summary.apply update time :: rest
      else summary :: applyTo update time rest

def apply (all : OrderSummaries) (update : SummaryUpdate) (time : Instant) : OrderSummaries :=
  ⟨applyTo update time all.summaries, all.applied + 1⟩

end OrderSummaries

end Courier
