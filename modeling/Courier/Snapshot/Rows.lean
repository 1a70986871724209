import Courier.Snapshot.Basic
import Courier.Store.State
/-
The JSON forms of stored rows, of selections among them and of changes to them.
-/
namespace Courier

/-- The fields of a row but its envelope. -/
def Row.members (row : Row) : List (String × Json) :=
  [("id", toJson row.id), ("message_id", toJson row.messageId), ("data_type", toJson row.dataType),
    ("delivery_type", toJson row.delivery), ("message_status", toJson row.status),
    ("created_at", toJson row.createdAt), ("retry_count", toJson row.retries),
    ("deferral_count", toJson row.deferrals), ("last_processed_at", toJson row.lastProcessedAt),
    ("next_attempt_at", toJson row.nextAttemptAt), ("correlation_id", toJson row.correlationId),
    ("causation_id", toJson row.causationId), ("dead_lettered", toJson row.deadLettered),
    ("last_error", toJson row.lastError), ("version", toJson row.version)]

instance : ToJson Row := ⟨fun row => .obj row.members⟩

def Row.withData (row : Row) : Json :=
  .obj (("data", row.data) :: row.members)

/-- A row with some of its fields replaced. -/
def Row.replace? (row : Row) (fields : Json) : Option Row := do
  return {
    id := ← fields.fieldOr? "id" row.id
    messageId := ← fields.fieldOr? "message_id" row.messageId
    dataType := ← fields.fieldOr? "data_type" row.dataType
    data := ← fields.fieldOr? "data" row.data
    delivery := ← fields.fieldOr? "delivery_type" row.delivery
    status := ← fields.fieldOr? "message_status" row.status
    createdAt := ← fields.fieldOr? "created_at" row.createdAt
    retries := ← fields.fieldOr? "retry_count" row.retries
    deferrals := ← fields.fieldOr? "deferral_count" row.deferrals
    lastProcessedAt := ← fields.fieldOr? "last_processed_at" row.lastProcessedAt
    nextAttemptAt := ← fields.fieldOr? "next_attempt_at" row.nextAttemptAt
    correlationId := ← fields.fieldOr? "correlation_id" row.correlationId
    causationId := ← fields.fieldOr? "causation_id" row.causationId
    deadLettered := ← fields.fieldOr? "dead_lettered" row.deadLettered
    lastError := ← fields.fieldOr? "last_error" row.lastError
    version := ← fields.fieldOr? "version" row.version }

instance : OfJson Draft where
  ofJson? value := do
    return {
      messageId := ← value.field? "message_id"
      dataType := ← value.field? "data_type"
      data := ← value.field? "data"
      delivery := ← value.field? "delivery_type"
      correlationId := ← value.field? "correlation_id"
      causationId := ← value.field? "causation_id" }

instance : ToJson Change where
  toJson change :=
    .obj [("id", toJson change.id), ("expected_version", toJson change.expectedVersion),
      ("expected_status", toJson change.expectedStatus), ("message_status", toJson change.status),
      ("retry_count", toJson change.retries), ("deferral_count", toJson change.deferrals),
      ("next_attempt_at", toJson change.nextAttemptAt),
      ("last_processed_at", toJson change.lastProcessedAt),
      ("last_error", toJson change.lastError), ("dead_lettered", toJson change.deadLettered)]

def Change.replace? (change : Change) (fields : Json) : Option Change := do
  return { change with
    status := ← fields.fieldOr? "status" change.status
    retries := ← fields.fieldOr? "retry_count" change.retries
    deferrals := ← fields.fieldOr? "deferral_count" change.deferrals
    nextAttemptAt := ← fields.fieldOr? "next_attempt_at" change.nextAttemptAt
    lastProcessedAt := ← fields.fieldOr? "last_processed_at" change.lastProcessedAt
    lastError := ← fields.fieldOr? "last_error" change.lastError
    deadLettered := ← fields.fieldOr? "dead_lettered" change.deadLettered }

instance : ToJson RowFilter where
  toJson filter :=
    .obj [("delivery_type", toJson filter.delivery), ("statuses", toJson filter.statuses),
      ("data_type", toJson filter.dataType), ("correlation_id", toJson filter.correlationId),
      ("message_id", toJson filter.messageId), ("dead_lettered", toJson filter.deadLettered),
      ("from_created_at", toJson filter.createdFrom), ("to_created_at", toJson filter.createdTo),
      ("limit", toJson filter.limit), ("offset", toJson filter.offset)]

/-- A single status may be given as `status`. -/
instance : OfJson RowFilter where
  ofJson? value := do
    let single : Option Status ← value.field? "status"
    return {
      delivery := ← value.field? "delivery_type"
      statuses := (single.map ([·])) <|> (← value.field? "statuses")
      dataType := ← value.field? "data_type"
      correlationId := ← value.field? "correlation_id"
      messageId := ← value.field? "message_id"
      deadLettered := ← value.field? "dead_lettered"
      createdFrom := ← value.field? "from_created_at"
      createdTo := ← value.field? "to_created_at"
      limit := ← value.field? "limit"
      offset := ← value.field? "offset" }

/-- Without `delivery_types`, a query is over every way of delivery. -/
instance : OfJson DueQuery where
  ofJson? value := do
    let deliveries ← value.fieldOr? "delivery_types" Delivery.all
    return ⟨deliveries, ← value.field? "max_retries", ← value.field? "now",
      ← value.field? "limit"⟩

instance : ToJson Document where
  toJson document :=
    .obj [("collection", toJson document.collection), ("key", toJson document.key),
      ("version", toJson document.version), ("body", document.body),
      ("updated_at", toJson document.updatedAt)]

end Courier
