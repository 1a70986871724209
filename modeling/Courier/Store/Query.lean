import Courier.Store.Row
/-
Selections of rows: filters for looking at the store, and the query for rows that are due.
-/
namespace Courier

/-- A selection of rows for readers.  An absent field selects every row. -/
structure RowFilter where
  delivery : Option Delivery := none
  statuses : Option (List Status) := none
  dataType : Option String := none
  correlationId : Option CorrelationId := none
  messageId : Option MessageId := none
  deadLettered : Option Bool := none
  createdFrom : Option Instant := none
  createdTo : Option Instant := none
  limit : Option Nat := none
  offset : Option Nat := none
deriving DecidableEq

/-- A row satisfies every field of a filter but its limit and offset. -/
def RowFilter.selects (filter : RowFilter) (row : Row) : Bool :=
  filter.delivery.all (· == row.delivery) &&
  filter.statuses.all (·.contains row.status) &&
  filter.dataType.all (· == row.dataType) &&
  filter.correlationId.all (· == row.correlationId) &&
  filter.messageId.all (· == row.messageId) &&
  filter.deadLettered.all (· == row.deadLettered) &&
  filter.createdFrom.all (fun start => decide (start ≤ row.createdAt)) &&
  filter.createdTo.all (fun finish => decide (row.createdAt ≤ finish))

/-- The rows a publisher may take up next. -/
structure DueQuery where
  deliveries : List Delivery
  maxRetries : Count
  now : Instant
  limit : Nat

/-- The query over every way of delivery. -/
def DueQuery.all (now : Instant) (maxRetries : Count) (limit : Nat) : DueQuery :=
  ⟨Delivery.all, maxRetries, now, limit⟩

/-- A row is due when it is no dead letter, its time has come, and it is stored, or has retries left
and has failed or is held by a claim that has run out. -/
def DueQuery.selects (query : DueQuery) (row : Row) : Bool :=
  !row.deadLettered && query.deliveries.contains row.delivery &&
    decide (row.nextAttemptAt ≤ query.now) &&
    match row.status with
    | .stored => true
    | .failed => decide (row.retries < query.maxRetries)
    | .processing => decide (row.retries < query.maxRetries)
    | .processed => false

/-- Oldest first: by time of creation, then by number. -/
def Row.notAfter (a b : Row) : Bool :=
  if a.createdAt = b.createdAt then decide (a.id ≤ b.id) else decide (a.createdAt ≤ b.createdAt)

def oldestFirst (rows : List Row) : List Row :=
  rows.mergeSort Row.notAfter

end Courier
