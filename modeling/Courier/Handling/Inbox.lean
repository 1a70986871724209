import Courier.Custody.Staging
import Courier.Handling.Registry
/-
The inbox takes envelopes from the external bus.  Each is checked against the registry and kept as a
row of its own transaction.  A message is kept once, so that a second delivery is recognised.
-/
namespace Courier

/-- What became of a received envelope. -/
inductive Received where
  /-- The first delivery; a publisher will hand it to its handler. -/
  | recorded (row : Row)
  /-- The message was there already; nothing was done. -/
  | duplicate (id : MessageId)

namespace Inbox

variable {κ : Type}

/-- The envelope decodes as a registered type that has a handler. -/
def check (registry : Registry κ) (raw : RawEnvelope) : Except MessagingError Unit := do
  registry.decode raw
  let typeName := raw.typeName?.getD ""
  if registry.hasHandler typeName then return ()
  else throw (.unregistered typeName)

/-- Report a message that was there already. -/
def duplicate (id : MessageId) : Attempt κ MessagingError Received := do
  Program.count κ .duplicateReceived
  return .duplicate id

/-- Keep an envelope unless its message was received before. -/
def receive (registry : Registry κ) (raw : RawEnvelope) : Attempt κ MessagingError Received := do
  Attempt.ofExcept (check registry raw)
  let tx ← Staging.begin
  let (staged, tx) ← ((Staging.saveRaw raw .inbox).inside tx : Program κ _)
  match staged with
  | .error (.store (.duplicate _ _)) => duplicate raw.metadata.messageId
  | .error error => throw error
  | .ok row =>
      match ← (Program.perform (.commit tx) : Program κ (Except StoreError Unit)) with
      | .ok () => return .recorded row
      | .error (.duplicate _ _) => duplicate raw.metadata.messageId
      | .error error => throw (.store error)

def receiveOctets (registry : Registry κ) (octets : List UInt8) :
    Attempt κ MessagingError Received := do
  let raw ← Attempt.ofExcept (RawEnvelope.ofOctets octets)
  receive registry raw

end Inbox

end Courier
