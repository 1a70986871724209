import Courier.Identity.Ids
import Courier.Json.Value
import Courier.Store.Status
import Courier.Time.Instant
/-
Rows, the stored form of messages, and the conditional changes that move them on.
-/
namespace Courier

/-- A stored message.  `data` is its envelope, `dataType` the name of its payload's type.  While the
row is processing, `nextAttemptAt` is the deadline of its claim; otherwise it is the earliest time
of the next attempt. -/
structure Row where
  id : RowId
  messageId : MessageId
  dataType : String
  data : Json
  delivery : Delivery
  status : Status
  createdAt : Instant
  retries : Count
  deferrals : Count
  lastProcessedAt : Option Instant
  nextAttemptAt : Instant
  correlationId : CorrelationId
  causationId : Option MessageId
  deadLettered : Bool
  lastError : Option String
  version : Int
deriving DecidableEq

structure Draft where
  messageId : MessageId
  dataType : String
  data : Json
  delivery : Delivery
  correlationId : CorrelationId
  causationId : Option MessageId
deriving DecidableEq

/-- The row of a freshly staged message. -/
def Row.fresh (id : RowId) (draft : Draft) (now : Instant) : Row where
  id := id
  messageId := draft.messageId
  dataType := draft.dataType
  data := draft.data
  delivery := draft.delivery
  status := .stored
  createdAt := now
  retries := 0
  deferrals := 0
  lastProcessedAt := none
  nextAttemptAt := now
  correlationId := draft.correlationId
  causationId := draft.causationId
  deadLettered := false
  lastError := none
  version := 1

/-- The row has reached a state that it never leaves. -/
def Row.isTerminal (row : Row) : Bool :=
  row.status == .processed || row.deadLettered

@[simp]
theorem Row.isTerminal_iff {row : Row} :
    row.isTerminal = true ↔ row.status = .processed ∨ row.deadLettered = true := by
  simp [isTerminal]

@[simp]
theorem Row.isTerminal_eq_false_iff {row : Row} :
    row.isTerminal = false ↔ row.status ≠ .processed ∧ row.deadLettered = false := by
  simp [isTerminal]

/-- Why moving a row to `next` is refused under a ceiling of `maxRetries`; none when it is
allowed. -/
def Row.refusal? (row : Row) (next : Status) (maxRetries : Count) : Option Refusal :=
  if row.status.leadsTo next = false then some .illegalEdge
  else if row.deadLettered then some .deadLettered
  else if row.status = .failed ∧ maxRetries ≤ row.retries then some .retriesExhausted
  else none

/-- A change of a row that takes place only if the row still has the version and the status that
the writer saw. -/
structure Change where
  id : RowId
  expectedVersion : Int
  expectedStatus : Status
  status : Status
  retries : Count
  deferrals : Count
  nextAttemptAt : Instant
  lastProcessedAt : Option Instant
  lastError : Option String
  deadLettered : Bool
deriving DecidableEq

/-- The change that writes a row's own values again. -/
def Change.of (row : Row) : Change where
  id := row.id
  expectedVersion := row.version
  expectedStatus := row.status
  status := row.status
  retries := row.retries
  deferrals := row.deferrals
  nextAttemptAt := row.nextAttemptAt
  lastProcessedAt := row.lastProcessedAt
  lastError := row.lastError
  deadLettered := row.deadLettered

/-- A row is as the change expects it. -/
def Change.fits (change : Change) (row : Row) : Bool :=
  row.id == change.id && row.version == change.expectedVersion &&
    row.status == change.expectedStatus

theorem Change.fits_iff {change : Change} {row : Row} : change.fits row = true ↔
    row.id = change.id ∧ row.version = change.expectedVersion ∧
      row.status = change.expectedStatus := by
  simp [fits, and_assoc]

theorem Change.id_of_fits {change : Change} {row : Row} (h : change.fits row = true) :
    row.id = change.id :=
  (fits_iff.1 h).1

@[simp]
theorem Change.fits_of (row : Row) : (Change.of row).fits row = true := by
  simp [Change.of, Change.fits]

/-- A row after a change; its version grows by one. -/
def Row.apply (row : Row) (change : Change) : Row :=
  { row with
    status := change.status
    retries := change.retries
    deferrals := change.deferrals
    nextAttemptAt := change.nextAttemptAt
    lastProcessedAt := change.lastProcessedAt
    lastError := change.lastError
    deadLettered := change.deadLettered
    version := row.version + 1 }

end Courier
