import Courier.Publishing.Publisher
import Courier.Service.Api
import Courier.Service.Settings
import Courier.Snapshot.Basic
/-
The JSON forms of settings, queries and the reports of publishers.
-/
namespace Courier

instance : ToJson PublisherSettings where
  toJson settings :=
    .obj [("max_retries", toJson settings.maxRetries),
      ("backoff_base", toJson settings.backoffBase), ("backoff_cap", toJson settings.backoffCap),
      ("batch_size", toJson settings.batchSize), ("poll_interval", toJson settings.pollInterval),
      ("claim_timeout", toJson settings.claimTimeout),
      ("routing_keys", toJson settings.routingKeys)]

/-- A span given in milliseconds. -/
def Json.millisOr? (value : Json) (name : String) (standard : Span) : Option Span := do
  let millis : Option Nat ← value.field? name
  return (millis.map Span.ofMillis).getD standard

/-- Settings with their spans in milliseconds; what is missing has its default. -/
instance : OfJson PublisherSettings where
  ofJson? value := do
    let standard : PublisherSettings := {}
    return {
      maxRetries := ← value.fieldOr? "max_retries" standard.maxRetries
      backoffBase := ← value.millisOr? "backoff_base_ms" standard.backoffBase
      backoffCap := ← value.millisOr? "backoff_cap_ms" standard.backoffCap
      batchSize := ← value.fieldOr? "batch_size" standard.batchSize
      pollInterval := ← value.millisOr? "poll_interval_ms" standard.pollInterval
      claimTimeout := ← value.millisOr? "claim_timeout_ms" standard.claimTimeout
      routingKeys := ← value.fieldOr? "routing_keys" standard.routingKeys }

/-- Settings after one choice, a list of its name and its values. -/
def PublisherSettings.choose? (settings : PublisherSettings) :
    Json → Option PublisherSettings
  | .arr [.str "max_retries", n] => do return { settings with maxRetries := ← ofJson? n }
  | .arr [.str "backoff", base, cap] => do
      return { settings with backoffBase := ← ofJson? base, backoffCap := ← ofJson? cap }
  | .arr [.str "batch_size", n] => do return { settings with batchSize := ← ofJson? n }
  | .arr [.str "poll_interval", time] => do
      return { settings with pollInterval := ← ofJson? time }
  | .arr [.str "claim_timeout", time] => do
      return { settings with claimTimeout := ← ofJson? time }
  | .arr [.str "routing_key", .str typeName, .str key] =>
      some { settings with routingKeys := settings.routingKeys.insert typeName key }
  | _ => none

/-- The members of a service's settings, with what follows from them. -/
def ServiceSettings.members (settings : ServiceSettings) : List (String × Json) :=
  [("host", toJson settings.host), ("port", toJson settings.port),
    ("log_level", toJson settings.logLevel), ("database_url", toJson settings.databaseUrl),
    ("workers", toJson settings.workers), ("outbox", toJson settings.publishing),
    ("addr", toJson settings.address), ("max_connections", toJson settings.maxConnections)]

instance : OfJson ListQuery where
  ofJson? value := do
    return {
      status := ← value.field? "status"
      delivery := ← value.field? "delivery_type"
      deadLettered := ← value.field? "dead_lettered"
      dataType := ← value.field? "data_type"
      correlationId := ← value.field? "correlation_id"
      limit := ← value.field? "limit"
      offset := ← value.field? "offset" }

/-- The content of a response: a JSON value, or the lines of a page that was found.  JSON that was
left out, and what stands on a page that was not found, are null. -/
def Response.content (response : Response) : Json :=
  match response.body with
  | .json value => value
  | .samples lines => toJson lines
  | .empty =>
      if response.status = 200 ∧ response.contentType ≠ some "application/json" then .arr []
      else .null

instance : ToJson Response where
  toJson response :=
    .obj [("status", toJson response.status), ("content_type", toJson response.contentType),
      ("cors", toJson response.allowedOrigin), ("body", response.content)]

instance : ToJson TickReport where
  toJson report :=
    .obj [("fetched", toJson report.fetched), ("claimed", toJson report.claimed),
      ("lost_claims", toJson report.lostClaims), ("processed", toJson report.processed),
      ("retried", toJson report.retried), ("dead_lettered", toJson report.deadLettered),
      ("deferred", toJson report.deferred), ("reclaimed", toJson report.reclaimed),
      ("errors", toJson report.errors), ("idle", toJson report.isIdle)]

instance : ToJson Custodian where
  toJson custodian :=
    .obj [("max_retries", toJson custodian.maxRetries),
      ("claim_timeout", toJson custodian.claimTimeout)]

end Courier
