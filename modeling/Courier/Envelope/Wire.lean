import Courier.Envelope.Basic
import Courier.Error
import Courier.Json.Fields
import Courier.Json.Tree
/-
The wire form of envelopes:

    message:  the payload
    metadata: messageId, correlationId, causationId (or null), createdAt, headers

Reading takes the wire form from a JSON value or from octets.
-/
namespace Courier

def Metadata.fieldNames : List String :=
  ["messageId", "correlationId", "causationId", "createdAt", "headers"]

def Metadata.toJson (metadata : Metadata) : Json :=
  .obj [("messageId", .str metadata.messageId.text),
    ("correlationId", .str metadata.correlationId.text),
    ("causationId", .ofText? (metadata.causationId.map MessageId.text)),
    ("createdAt", .str metadata.createdAt.text),
    ("headers", .obj (metadata.headers.entries.map fun (name, value) => (name, .str value)))]

/-- A header with its text. -/
def headerOfMember? (member : String × Json) : Option (String × String) :=
  member.2.string?.map (member.1, ·)

/-- Headers are an object of texts. -/
def headersOfJson? : Json → Option (Table String)
  | .obj members => (members.mapM headerOfMember?).map Table.ofList
  | _ => none

/-- Headers that may be missing, but not null. -/
def headersField? : Option Json → Option (Table String)
  | none => some Table.empty
  | some value => headersOfJson? value

def messageIdOfJson? (value : Json) : Option MessageId :=
  value.string?.bind MessageId.read?

def correlationIdOfJson? (value : Json) : Option CorrelationId :=
  value.string?.bind CorrelationId.read?

def Metadata.ofJson? (value : Json) : Option Metadata :=
  match value.record? Metadata.fieldNames 4 with
  | some [messageId, correlationId, causationId, createdAt, headers] => do
      let messageId ← neededField? messageIdOfJson? messageId
      let correlationId ← neededField? correlationIdOfJson? correlationId
      let causationId ← optionalField? messageIdOfJson? causationId
      let createdAt ← neededField? (·.string?.bind Instant.read?) createdAt
      let headers ← headersField? headers
      return ⟨messageId, correlationId, causationId, createdAt, headers⟩
  | _ => none

namespace RawEnvelope

def fieldNames : List String := ["message", "metadata"]

def toJson (envelope : RawEnvelope) : Json :=
  .obj [("message", envelope.message), ("metadata", envelope.metadata.toJson)]

def ofJson? (value : Json) : Option RawEnvelope :=
  match value.record? fieldNames 2 with
  | some [message, metadata] => do
      let message ← neededField? some message
      let metadata ← neededField? Metadata.ofJson? metadata
      return ⟨message, metadata⟩
  | _ => none

/-- What a reader reports on anything that is not an envelope. -/
def notAnEnvelope : MessagingError :=
  .malformed "not an envelope: its shape is another"

/-- Read the wire form from a JSON value. -/
def ofJson (value : Json) : Except MessagingError RawEnvelope :=
  match ofJson? value with
  | some envelope => .ok envelope
  | none => .error notAnEnvelope

/-- The members of a record among the members of an object.  A record's field must not be repeated;
what is no field of the record is skipped unread. -/
def pickFields? (fields : List String) :
    List (Option String × JsonTree) → Option (List (String × JsonTree))
  | [] => some []
  | (none, _) :: _ => none
  | (some key, tree) :: rest =>
      match pickFields? fields rest with
      | none => none
      | some picked =>
          if fields.contains key then
            if picked.any (·.1 == key) then none else some ((key, tree) :: picked)
          else some picked

/-- Nothing but texts among the members, those included that a later one replaces. -/
def holdsTexts : JsonTree → Bool
  | .object members => members.all fun (_, member) =>
      match member with
      | .string (some _) => true
      | _ => false
  | _ => true

/-- The JSON value of metadata, its fields picked out. -/
def metadataValue? (depth : Nat) : JsonTree → Option Json
  | .object members =>
      match depth with
      | 0 => none
      | depth + 1 => do
          let picked ← pickFields? Metadata.fieldNames members
          let values ← picked.mapM fun (key, tree) =>
            if key = "headers" ∧ !holdsTexts tree then none
            else (tree.value? depth).map (key, ·)
          return .obj values
  | .array items => if items.all holdsTexts then JsonTree.value? depth (.array items) else none
  | tree => tree.value? depth

/-- The JSON value of one field of an envelope. -/
def fieldValue? (depth : Nat) (key : String) (tree : JsonTree) : Option Json :=
  if key = "metadata" then metadataValue? depth tree else tree.value? depth

/-- The JSON value of an envelope, its fields picked out. -/
def value? (depth : Nat) : JsonTree → Option Json
  | .object members =>
      match depth with
      | 0 => none
      | depth + 1 => do
          let picked ← pickFields? fieldNames members
          let values ← picked.mapM fun (key, tree) => (fieldValue? depth key tree).map (key, ·)
          return .obj values
  | .array [message, metadata] =>
      match depth with
      | 0 => none
      | depth + 1 => do
          let message ← message.value? depth
          let metadata ← metadataValue? depth metadata
          return .arr [message, metadata]
  | _ => none

/-- Read the wire form from octets that came off a transport. -/
def ofOctets (octets : List UInt8) : Except MessagingError RawEnvelope :=
  match (JsonTree.read? octets).bind (value? JsonTree.deepest) with
  | some value => ofJson value
  | none => .error notAnEnvelope

end RawEnvelope

/-- Recover the typed envelope.  The header has to name the type asked for, and the payload has to
decode as that type. -/
def Envelope.unwrap (α : Type) [Message α] (raw : RawEnvelope) :
    Except MessagingError (Envelope α) :=
  let actual := raw.typeName?.getD noType
  if actual = Message.typeName α then
    match Message.ofJson? (α := α) raw.message with
    | some message => .ok ⟨message, raw.metadata⟩
    | none => .error (.malformed (actual ++ ": the payload's shape is another"))
  else .error (.typeMismatch (Message.typeName α) actual)

end Courier
