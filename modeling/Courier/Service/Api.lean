import Courier.Custody.Custodian
import Courier.Json.Value
import Courier.Text.Form
import Courier.Text.Numeral
/-
The pages that operators read: health, stored messages, dead letters and counters.
-/
namespace Courier

inductive ApiError where
  | notFound (reason : String)
  | badRequest (reason : String)
  | messaging (error : MessagingError)
  | internal (reason : String)
deriving DecidableEq, Repr

namespace ApiError

def message : ApiError → String
  | .notFound reason => reason
  | .badRequest reason => reason
  | .messaging error => error.message
  | .internal reason => reason

def status : ApiError → Nat
  | .notFound _ => 404
  | .badRequest _ => 400
  | .messaging (.store (.notFound _)) => 404
  | .messaging _ => 500
  | .internal _ => 500

end ApiError

inductive Body where
  | empty
  | json (value : Json)
  /-- Counters, one line for each. -/
  | samples (lines : List String)
deriving DecidableEq

def Body.contentType? : Body → Option String
  | .empty => none
  | .json _ => some "application/json"
  | .samples _ => some "text/plain; version=0.0.4; charset=utf-8"

/-- A response.  Every origin may read it. -/
structure Response where
  status : Nat
  contentType : Option String
  body : Body
  allowedOrigin : String := "*"
deriving DecidableEq

namespace Response

def ofBody (status : Nat) (body : Body) : Response :=
  { status := status, contentType := body.contentType?, body := body }

def ofJson (value : Json) : Response :=
  ofBody 200 (.json value)

def bare (status : Nat) : Response :=
  ofBody status .empty

def ofError (error : ApiError) : Response :=
  ofBody error.status (.json (.obj [("error", .str error.message)]))

/-- The response without its content, which it still describes. -/
def withoutBody (response : Response) : Response :=
  { response with body := .empty }

end Response

/-- The fields by which stored messages are listed. -/
structure ListQuery where
  status : Option String := none
  delivery : Option String := none
  deadLettered : Option Bool := none
  dataType : Option String := none
  correlationId : Option String := none
  limit : Option Nat := none
  offset : Option Nat := none
deriving DecidableEq, Repr

namespace ListQuery

/-- The length of a page when the query names none. -/
def standardLimit : Nat := 100

def greatestLimit : Nat := 1000

/-- The greatest number that a query may name. -/
def greatestNumber : Nat := 18446744073709551615

/-- Statuses with commas between them. -/
def readStatuses (text : String) : Except StoreError (List Status) :=
  (splitAtEach ',' text.toList).mapM fun piece => Status.ofText (String.ofList (trim piece))

/-- A failure of reading as a bad request. -/
def asBadRequest {α : Type} (outcome : Except StoreError α) : Except ApiError α :=
  match outcome with
  | .ok value => .ok value
  | .error error => .error (.badRequest error.message)

/-- The value that an optional text spells. -/
def readOptional {α : Type} (read : String → Except ApiError α) :
    Option String → Except ApiError (Option α)
  | none => .ok none
  | some text => (read text).map some

def readCorrelation (text : String) : Except ApiError CorrelationId :=
  match CorrelationId.read? text with
  | some id => .ok id
  | none => .error (.badRequest "Invalid correlation_id: not a UUID")

/-- The filter of a query.  The first field that cannot be read is reported. -/
def toFilter (query : ListQuery) : Except ApiError RowFilter := do
  let statuses ← readOptional (fun text => asBadRequest (readStatuses text)) query.status
  let delivery ← readOptional (fun text => asBadRequest (Delivery.ofText text)) query.delivery
  let correlationId ← readOptional readCorrelation query.correlationId
  return {
    delivery := delivery
    statuses := statuses
    dataType := query.dataType
    correlationId := correlationId
    deadLettered := query.deadLettered
    limit := some (min (query.limit.getD standardLimit) greatestLimit)
    offset := some (query.offset.getD 0) }

/-- A field that is not there yet. -/
def onlyOnce {α : Type} (present : Option α) (value : Option α) : Option (Option α) :=
  match present, value with
  | none, some value => some (some value)
  | _, _ => none

def readBool? : String → Option Bool
  | "true" => some true
  | "false" => some false
  | _ => none

def readNumber? (text : String) : Option Nat :=
  (readNatural greatestNumber text).toOption

/-- Take one field of a query string over.  Other fields are ignored. -/
def takeField? (query : ListQuery) (field : String × String) : Option ListQuery :=
  let (name, value) := field
  if name = "status" then
    (onlyOnce query.status value).map fun status => { query with status := status }
  else if name = "delivery_type" then
    (onlyOnce query.delivery value).map fun delivery => { query with delivery := delivery }
  else if name = "dead_lettered" then
    (onlyOnce query.deadLettered (readBool? value)).map fun deadLettered =>
      { query with deadLettered := deadLettered }
  else if name = "data_type" then
    (onlyOnce query.dataType value).map fun dataType => { query with dataType := dataType }
  else if name = "correlation_id" then
    (onlyOnce query.correlationId value).map fun correlationId =>
      { query with correlationId := correlationId }
  else if name = "limit" then
    (onlyOnce query.limit (readNumber? value)).map fun limit => { query with limit := limit }
  else if name = "offset" then
    (onlyOnce query.offset (readNumber? value)).map fun offset => { query with offset := offset }
  else some query

/-- The query of a query string; none when a known field is repeated or cannot be read. -/
def ofQueryString? (text : String) : Option ListQuery :=
  (formFields text).foldlM takeField? {}

end ListQuery

/-- What operators see of a row. -/
def Row.viewMembers (row : Row) : List (String × Json) :=
  [("id", .int row.id.value), ("message_id", .str row.messageId.text),
    ("data_type", .str row.dataType), ("delivery_type", .str row.delivery.text),
    ("status", .str row.status.text), ("retry_count", .ofNat row.retries.toNat),
    ("deferral_count", .ofNat row.deferrals.toNat), ("dead_lettered", .bool row.deadLettered),
    ("last_error", .ofText? row.lastError), ("correlation_id", .str row.correlationId.text),
    ("causation_id", .ofText? (row.causationId.map MessageId.text)),
    ("created_at", .str row.createdAt.text),
    ("last_processed_at", .ofText? (row.lastProcessedAt.map Instant.text)),
    ("next_attempt_at", .str row.nextAttemptAt.text)]

/-- Members by which a client tells a row and where it stands in the order of listings. -/
structure Row.IsShownBy (row : Row) (members : List (String × Json)) : Prop where
  id : findEntry? "id" members = some (.int row.id.value)
  messageId : findEntry? "message_id" members = some (.str row.messageId.text)
  createdAt : findEntry? "created_at" members = some (.str row.createdAt.text)

theorem Row.isShownBy_viewMembers (row : Row) : row.IsShownBy row.viewMembers :=
  ⟨rfl, rfl, rfl⟩

/-- A response that counts rows and shows them one after another. -/
structure Response.Lists (response : Response) (rows : List Row) : Prop where
  status : response.status = 200
  contentType : response.contentType = some "application/json"
  body : ∃ view : Row → List (String × Json), (∀ row ∈ rows, row.IsShownBy (view row)) ∧
    response.body = .json (.obj [("count", .int rows.length),
      ("messages", .arr (rows.map fun row => .obj (view row)))])

structure Request where
  method : String
  path : String
  query : String
deriving DecidableEq, Repr

def isSchemeChar (c : Char) : Bool :=
  c.isAlphanum || c == '+' || c == '-' || c == '.'

/-- A target without scheme and authority: `http://host:80/health?full` becomes `/health?full`. -/
def localTarget (target : List Char) : List Char :=
  match target.dropWhile isSchemeChar with
  | ':' :: '/' :: '/' :: rest =>
      match rest.dropWhile fun c => c != '/' && c != '?' with
      | '/' :: path => '/' :: path
      | query => '/' :: query
  | _ => target

/-- The request of a method and a target, whose fragment is left out. -/
def Request.ofTarget (method target : String) : Request :=
  let target := localTarget (target.toList.takeWhile (· != '#'))
  match splitAtFirst? '?' target with
  | some (path, query) => ⟨method, String.ofList path, String.ofList query⟩
  | none => ⟨method, String.ofList target, ""⟩

inductive Page where
  | health
  | messages
  | deadLetters
  | message (segment : String)
  | counters
deriving DecidableEq, Repr

def Page.at? (path : String) : Option Page :=
  if path = "/health" then some .health
  else if path = "/metrics" then some .counters
  else if path = "/messages" then some .messages
  else if path = "/messages/dead-letters" then some .deadLetters
  else
    let folder := "/messages/".toList
    let segment := path.toList.drop folder.length
    if path.toList.take folder.length = folder ∧ segment ≠ [] ∧ '/' ∉ segment then
      some (.message (String.ofList segment))
    else none

namespace Api

variable {κ : Type}

/-- The response of an attempt. -/
def respond (attempt : Attempt κ ApiError Response) : Program κ Response := do
  match ← attempt.run with
  | .ok response => return response
  | .error error => return Response.ofError error

/-- A list of rows with their number. -/
def listing (rows : List Row) : Response :=
  .ofJson (.obj [("count", .ofNat rows.length),
    ("messages", .arr (rows.map fun row => .obj row.viewMembers))])

theorem listing_lists (rows : List Row) : (listing rows).Lists rows where
  status := rfl
  contentType := rfl
  body := ⟨Row.viewMembers, fun row _ => row.isShownBy_viewMembers, rfl⟩

def messages (query : ListQuery) : Attempt κ ApiError Response := do
  let filter ← Attempt.ofExcept query.toFilter
  let rows ← Attempt.calling .messaging (Custodian.find filter).run
  return listing rows

def deadLetters : Attempt κ ApiError Response := do
  let rows ← Attempt.calling .messaging Custodian.deadLetters.run
  return listing rows

def message (segment : String) : Attempt κ ApiError Response := do
  match readInteger 9223372036854775807 segment with
  | .error fault => throw (.badRequest ("Invalid message id: " ++ fault.message))
  | .ok id =>
      match ← Attempt.calling .messaging (Custodian.get ⟨id⟩).run with
      | some row => return .ofJson (.obj (row.viewMembers ++ [("data", row.data)]))
      | none => throw (.notFound ("Message " ++ toString id ++ " not found"))

def content (workers : Nat) (query : String) : Page → Program κ Response
  | .health => return .ofJson (.obj [("status", .str "ok"), ("workers", .ofNat workers)])
  | .counters => do
      let lines ← (Program.perform .samples : Program κ (List String))
      return .ofBody 200 (.samples lines)
  | .deadLetters => respond deadLetters
  | .messages =>
      match ListQuery.ofQueryString? query with
      | some query => respond (messages query)
      | none => return .bare 400
  | .message segment =>
      match decodeSegment? segment with
      | some id => respond (message id)
      | none => return .bare 400

/-- Answer a request.  Pages can only be read. -/
def answer (workers : Nat) (request : Request) : Program κ Response :=
  if request.method = "OPTIONS" then return .bare 200
  else
    match Page.at? request.path with
    | none => return .bare 404
    | some page =>
        if request.method = "GET" then content workers request.query page
        else if request.method = "HEAD" then do
          return (← content workers request.query page).withoutBody
        else return .bare 405

end Api

end Courier
