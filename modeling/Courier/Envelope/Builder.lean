import Courier.Envelope.Basic
import Courier.Envelope.Violation
import Courier.Program.Basic
import Courier.Text.Blank
import Courier.Text.Letter
/-
Making envelopes.  Wrapping gives a payload a fresh identity under a context; building lets the
metadata be chosen and checks what was chosen.
-/
namespace Courier

/-- A notification that an aggregate raises when its state changes. -/
class DomainEvent (ε : Type) where
  eventType : ε → String

/-- Start a new causal chain. -/
def Context.root {κ : Type} : Program κ Context := do
  return ⟨⟨← Program.mint κ⟩, none⟩

namespace Envelope

variable {κ α : Type}

/-- Wrap a payload under the name of a type. -/
def wrapAs (typeName : String) (message : α) (ctx : Context) : Program κ (Envelope α) := do
  let id ← Program.mint κ
  let now ← Program.now κ
  return ⟨message, Metadata.fresh ⟨id⟩ now typeName ctx⟩

def wrap [Message α] (message : α) (ctx : Context) : Program κ (Envelope α) :=
  wrapAs (Message.typeName α) message ctx

/-- Wrap a domain event; its type is that of its case. -/
def wrapEvent [DomainEvent α] (event : α) (ctx : Context) : Program κ (Envelope α) :=
  wrapAs (DomainEvent.eventType event) event ctx

end Envelope

/-- An envelope in the making. -/
structure Builder (α : Type) where
  message : α
  typeName : String
  messageId : Option MessageId
  correlationId : CorrelationId
  causationId : Option MessageId
  createdAt : Option Instant
  headers : Table String

/-- A choice about the metadata of an envelope in the making. -/
inductive Override where
  | messageId (id : MessageId)
  | correlationId (id : CorrelationId)
  | causationId (id : MessageId)
  /-- Make the envelope the root of its chain. -/
  | noCausation
  | createdAt (time : Instant)
  | header (key value : String)
deriving DecidableEq, Repr

namespace Builder

variable {κ α : Type}

def start [Message α] (message : α) (ctx : Context) : Builder α where
  message := message
  typeName := Message.typeName α
  messageId := none
  correlationId := ctx.correlationId
  causationId := ctx.causationId
  createdAt := none
  headers := Table.empty

/-- Start an envelope with the payload and the metadata of another one. -/
def rewrap (envelope : Envelope α) : Builder α where
  message := envelope.message
  typeName := envelope.typeName?.getD ""
  messageId := some envelope.metadata.messageId
  correlationId := envelope.metadata.correlationId
  causationId := envelope.metadata.causationId
  createdAt := some envelope.metadata.createdAt
  headers := envelope.metadata.headers.erase typeHeader

/-- Take a choice over; a later one of the same kind replaces an earlier one. -/
def choose (builder : Builder α) : Override → Builder α
  | .messageId id => { builder with messageId := some id }
  | .correlationId id => { builder with correlationId := id }
  | .causationId id => { builder with causationId := some id }
  | .noCausation => { builder with causationId := none }
  | .createdAt time => { builder with createdAt := some time }
  | .header key value => { builder with headers := builder.headers.insert key value }

def chooseAll (builder : Builder α) (overrides : List Override) : Builder α :=
  overrides.foldl choose builder

/-- How far ahead of the clock an envelope may be created. -/
def clockSkew : Span := Span.ofSeconds 5

/-- What is wrong with a header's key. -/
def keyViolations (key : String) : List Violation :=
  if allBlank key then [.blankHeaderKey]
  else if sameIgnoringCase key typeHeader then [.reservedHeader key]
  else []

/-- The rules that the envelope would violate, given its identity, the time, and the latest time at
which it may be created. -/
def violations (builder : Builder α) (id : MessageId) (now bound : Instant) : List Violation :=
  let createdAt := builder.createdAt.getD now
  builder.headers.names.flatMap keyViolations ++
    (if builder.correlationId.uuid.isNil then [.blankCorrelationId] else []) ++
    (if builder.causationId = some id then [.selfCausation id] else []) ++
    (if bound < createdAt then [.createdInFuture createdAt now] else [])

/-- Why an envelope is not built. -/
inductive Failure where
  /-- Every rule that it violates. -/
  | violated (violations : List Violation)
  /-- The latest time at which it may be created is beyond the time line. -/
  | overflow
deriving DecidableEq, Repr

/-- The envelope with a given identity at a given time, or why it is not built. -/
def finish (builder : Builder α) (id : MessageId) (now : Instant) : Except Failure (Envelope α) :=
  match now.later? clockSkew with
  | none => .error .overflow
  | some bound =>
      (Violation.guarding (builder.violations id now bound)
        { message := builder.message
          metadata := {
            messageId := id
            correlationId := builder.correlationId
            causationId := builder.causationId
            createdAt := builder.createdAt.getD now
            headers := builder.headers.insert typeHeader builder.typeName } }).mapError .violated

/-- Build the envelope.  A fresh identity is taken only if none was chosen. -/
def build (builder : Builder α) : Program κ (Except Failure (Envelope α)) := do
  let now ← Program.now κ
  let id ← match builder.messageId with
    | some id => pure id
    | none => do pure ⟨← Program.mint κ⟩
  return builder.finish id now

end Builder

end Courier
