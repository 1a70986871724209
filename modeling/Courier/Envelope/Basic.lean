import Courier.Identity.Ids
import Courier.Json.Value
import Courier.Table
import Courier.Time.Text
/-
Envelopes: a payload together with the identity and the causal lineage of the message that carries
it.
-/
namespace Courier

/-- The header that carries the name of the payload's type. -/
def typeHeader : String := "message-type"

/-- What stands for the type's name in reports on an envelope without that header. -/
def noType : String := "<none>"

/-- A type of payload: the name it is registered under, and its JSON form. -/
class Message (α : Type) where
  typeName : String
  toJson : α → Json
  ofJson? : Json → Option α

/-- Identity, lineage and headers of one envelope. -/
structure Metadata where
  messageId : MessageId
  correlationId : CorrelationId
  causationId : Option MessageId
  createdAt : Instant
  headers : Table String
deriving DecidableEq

def Metadata.header? (metadata : Metadata) (name : String) : Option String :=
  metadata.headers.get? name

def Metadata.typeName? (metadata : Metadata) : Option String :=
  metadata.header? typeHeader

/-- A payload with its metadata. -/
structure Envelope (α : Type) where
  message : α
  metadata : Metadata
deriving DecidableEq

/-- An envelope whose payload is still JSON, as it is stored and sent. -/
abbrev RawEnvelope := Envelope Json

def Envelope.typeName? {α : Type} (envelope : Envelope α) : Option String :=
  envelope.metadata.typeName?

def Envelope.toRaw {α : Type} [Message α] (envelope : Envelope α) : RawEnvelope :=
  ⟨Message.toJson envelope.message, envelope.metadata⟩

/-- The causal position of the code that is about to create messages. -/
structure Context where
  correlationId : CorrelationId
  causationId : Option MessageId
deriving DecidableEq, Repr

namespace Context

/-- The start of a chain under a known correlation. -/
def ofCorrelation (id : CorrelationId) : Context := ⟨id, none⟩

/-- The position of code that handles the envelope with this metadata. -/
def causedBy (metadata : Metadata) : Context :=
  ⟨metadata.correlationId, some metadata.messageId⟩

def isRoot (ctx : Context) : Bool :=
  ctx.causationId.isNone

end Context

/-- The metadata of a new message under a context. -/
def Metadata.fresh (id : MessageId) (now : Instant) (typeName : String) (ctx : Context) :
    Metadata where
  messageId := id
  correlationId := ctx.correlationId
  causationId := ctx.causationId
  createdAt := now
  headers := Table.empty.insert typeHeader typeName

@[simp]
theorem Metadata.typeName?_fresh (id : MessageId) (now : Instant) (typeName : String)
    (ctx : Context) : (Metadata.fresh id now typeName ctx).typeName? = some typeName :=
  Table.get?_insert_self ..

end Courier
