import Courier.Envelope.Builder
import Courier.Envelope.Wire
import Courier.Program.Basic
/-
Staging: storing messages inside the caller's transaction, so that they are committed with the
business documents or not at all.
-/
namespace Courier

namespace Staging

variable {κ α : Type}

def begin : Attempt κ MessagingError Transaction :=
  Attempt.calling .store (Program.perform .begin)

def commit (tx : Transaction) : Attempt κ MessagingError Unit :=
  Attempt.calling .store (Program.perform (.commit tx))

/-- Stage a message as it is. -/
def stageDraft (draft : Draft) : Work κ Row :=
  Work.of fun tx => do
    match ← Program.perform (.stage tx draft) with
    | .ok (tx, row) => return (.ok row, tx)
    | .error error => return (.error (.store error), tx)

/-- The stored form of an envelope under the name of its payload's type. -/
def draftOf (raw : RawEnvelope) (typeName : String) (delivery : Delivery) : Draft where
  messageId := raw.metadata.messageId
  dataType := typeName
  data := RawEnvelope.toJson raw
  delivery := delivery
  correlationId := raw.metadata.correlationId
  causationId := raw.metadata.causationId

/-- Stage an envelope whose payload is JSON already. -/
def saveRaw (raw : RawEnvelope) (delivery : Delivery) : Work κ Row := do
  match raw.typeName? with
  | none => throw (.malformed "envelope has no message-type header")
  | some typeName =>
      let row ← stageDraft (draftOf raw typeName delivery)
      Program.count κ (.staged delivery)
      return row

def save [Message α] (envelope : Envelope α) (delivery : Delivery) : Work κ Row :=
  saveRaw envelope.toRaw delivery

/-- Wrap an integration event and stage it for the external bus. -/
def stageEvent [Message α] (ctx : Context) (event : α) : Work κ Row := do
  let envelope ← (Envelope.wrap event ctx : Program κ (Envelope α))
  save envelope .outbox

/-- Wrap commands and stage each for its handler in this process. -/
def schedule [Message α] (ctx : Context) : List α → Work κ (List Row)
  | [] => return []
  | command :: rest => do
      let envelope ← (Envelope.wrap command ctx : Program κ (Envelope α))
      let row ← save envelope .internal
      let rows ← schedule ctx rest
      return row :: rows

end Staging

end Courier
