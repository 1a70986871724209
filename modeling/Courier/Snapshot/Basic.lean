import Courier.Envelope.Builder
import Courier.Envelope.Wire
import Courier.Json.Codec
/-
The JSON forms of identifiers, times and contexts in reports and scripts.
-/
namespace Courier

instance : ToJson MessageId := ⟨fun id => .str id.text⟩

instance : OfJson MessageId := ⟨messageIdOfJson?⟩

instance : ToJson CorrelationId := ⟨fun id => .str id.text⟩

instance : OfJson CorrelationId := ⟨correlationIdOfJson?⟩

instance : ToJson RowId := ⟨fun id => .int id.value⟩

instance : OfJson RowId := ⟨fun value => value.integer?.map RowId.mk⟩

instance : ToJson Instant := ⟨fun time => .str time.text⟩

/-- How times in scripts begin: `d` stands for a digit, `T` for itself or a blank. -/
def timePattern : List Char := "dddd-dd-ddTdd:dd:dd".toList

def hasPattern : List Char → List Char → Bool
  | [], _ => true
  | mark :: pattern, c :: text =>
      (if mark = 'd' then c.isDigit else if mark = 'T' then c ∈ ['T', 't', ' '] else c == mark) &&
        hasPattern pattern text
  | _, [] => false

/-- A time in a script has a year of four digits. -/
instance : OfJson Instant where
  ofJson? value := do
    let text ← value.string?
    if hasPattern timePattern text.toList then Instant.read? text else none

/-- A span as its whole seconds and the nanoseconds beyond them. -/
instance : ToJson Span :=
  ⟨fun span => toJson [span.nanos / 1000000000, span.nanos % 1000000000]⟩

instance : OfJson Span where
  ofJson? value := do
    match (← ofJson? value : List Nat) with
    | [seconds, nanos] => return Span.ofNanos (seconds * 1000000000 + nanos)
    | _ => none

instance : ToJson Status := ⟨fun status => .str status.text⟩

instance : OfJson Status := ⟨fun value => value.string?.bind Status.read?⟩

instance : ToJson Delivery := ⟨fun delivery => .str delivery.text⟩

instance : OfJson Delivery := ⟨fun value => value.string?.bind Delivery.read?⟩

instance : ToJson Context where
  toJson ctx :=
    .obj [("correlation_id", toJson ctx.correlationId), ("causation_id", toJson ctx.causationId),
      ("is_root", toJson ctx.isRoot)]

instance : ToJson RawEnvelope := ⟨RawEnvelope.toJson⟩

/-- An envelope in its wire form, its payload written by `encode`, with the name of its type and the
context of what it causes. -/
def Envelope.snapshot {α : Type} (encode : α → Json) (envelope : Envelope α) : Json :=
  .obj [("wire", RawEnvelope.toJson ⟨encode envelope.message, envelope.metadata⟩),
    ("message_type", toJson envelope.typeName?),
    ("caused_by", toJson (Context.causedBy envelope.metadata))]

/-- A choice about an envelope: a list of its name and its values. -/
instance : OfJson Override where
  ofJson?
    | .arr [.str "message_id", id] => (ofJson? id).map .messageId
    | .arr [.str "correlation_id", id] => (ofJson? id).map .correlationId
    | .arr [.str "causation_id", id] => (ofJson? id).map .causationId
    | .arr [.str "no_causation"] => some .noCausation
    | .arr [.str "created_at", time] => (ofJson? time).map .createdAt
    | .arr [.str "header", .str key, .str value] => some (.header key value)
    | _ => none

end Courier
