import Courier.Proofs.Envelope.Wire
import Courier.Proofs.Order.Wire
/-
Typed envelopes in their stored form.  Where the JSON form of a payload loses nothing, its envelope is
read back as it was, from the stored form itself and from the wire form of that, and it is never taken
for an envelope of another type.
-/
namespace Courier

/-- A type of payload whose JSON form loses nothing. -/
class Message.Lossless (α : Type) [Message α] : Prop where
  ofJson?_toJson : ∀ message : α, Message.ofJson? (Message.toJson message) = some message

instance : Message.Lossless OrderPlaced := ⟨OrderPlaced.ofJson?_toJson⟩

instance : Message.Lossless OrderCancelled := ⟨OrderCancelled.ofJson?_toJson⟩

instance : Message.Lossless SummaryUpdate := ⟨SummaryUpdate.ofJson?_toJson⟩

namespace Envelope

variable {α : Type} [Message α]

def NamesItsType (envelope : Envelope α) : Prop :=
  envelope.typeName? = some (Message.typeName α)

instance (envelope : Envelope α) : Decidable envelope.NamesItsType :=
  inferInstanceAs (Decidable (envelope.typeName? = some (Message.typeName α)))

/-- An envelope is recovered from its stored form as its own type, and as no other. -/
structure RecoveredFrom (envelope : Envelope α) (raw : RawEnvelope) : Prop where
  own : unwrap α raw = .ok envelope
  other : ∀ (β : Type) [Message β], Message.typeName β ≠ Message.typeName α →
    unwrap β raw = .error (.typeMismatch (Message.typeName β) (Message.typeName α))

/-- An envelope is recovered from its stored form, directly and through the wire form. -/
def Recovered (envelope : Envelope α) : Prop :=
  envelope.RecoveredFrom envelope.toRaw ∧
    ∃ raw, RawEnvelope.ofJson (RawEnvelope.toJson envelope.toRaw) = .ok raw ∧
      envelope.RecoveredFrom raw

theorem unwrap_toRaw [Message.Lossless α] {envelope : Envelope α} (h : envelope.NamesItsType) :
    unwrap α envelope.toRaw = .ok envelope := by
  have htype : envelope.toRaw.typeName? = some (Message.typeName α) := h
  have hpayload : Message.ofJson? envelope.toRaw.message = some envelope.message :=
    Message.Lossless.ofJson?_toJson envelope.message
  simp only [unwrap, htype, Option.getD_some, ↓reduceIte, hpayload]
  rfl

theorem unwrap_other {raw : RawEnvelope} (h : raw.typeName? = some (Message.typeName α)) {β : Type}
    [Message β] (hother : Message.typeName β ≠ Message.typeName α) :
    unwrap β raw = .error (.typeMismatch (Message.typeName β) (Message.typeName α)) := by
  simp only [unwrap, h, Option.getD_some, hother.symm, ↓reduceIte]

theorem NamesItsType.recovered [Message.Lossless α] {envelope : Envelope α}
    (h : envelope.NamesItsType) : envelope.Recovered := by
  have htype : envelope.toRaw.typeName? = some (Message.typeName α) := h
  have hraw : envelope.RecoveredFrom envelope.toRaw :=
    ⟨unwrap_toRaw h, fun _ _ hother => unwrap_other htype hother⟩
  exact ⟨hraw, envelope.toRaw, RawEnvelope.ofJson_toJson _, hraw⟩

end Envelope

/-- Every envelope is restored from its wire form, and those of the messages that orders send are
recovered from their stored form as what they were and as nothing else. -/
theorem envelopes_recovered :
    (∀ raw : RawEnvelope, RawEnvelope.ofJson (RawEnvelope.toJson raw) = .ok raw) ∧
    (∀ envelope : Envelope OrderPlaced, envelope.NamesItsType → envelope.Recovered) ∧
    (∀ envelope : Envelope OrderCancelled, envelope.NamesItsType → envelope.Recovered) ∧
    (∀ envelope : Envelope SummaryUpdate, envelope.NamesItsType → envelope.Recovered) ∧
    [Message.typeName OrderPlaced, Message.typeName OrderCancelled,
      Message.typeName SummaryUpdate].Nodup :=
  ⟨RawEnvelope.ofJson_toJson, fun _ h => h.recovered, fun _ h => h.recovered,
    fun _ h => h.recovered, by decide⟩

/-- An update without a customer, at the least amount and in a leap second, for use in examples. -/
def lateUpdate : Envelope SummaryUpdate where
  message := ⟨⟨7⟩, .cancelled, none, some Int64.minValue⟩
  metadata :=
    { messageId := ⟨Uuid.ofNat 1⟩
      correlationId := ⟨Uuid.ofNat 2⟩
      causationId := some ⟨Uuid.ofNat 3⟩
      createdAt := ⟨59000000000, true, by decide, by decide, by decide⟩
      headers := Table.empty.insert typeHeader "UpdateOrderReadModel" }

theorem lateUpdate_recovered : lateUpdate.NamesItsType ∧ lateUpdate.Recovered :=
  have h : lateUpdate.NamesItsType := by decide
  ⟨h, envelopes_recovered.2.2.2.1 lateUpdate h⟩

end Courier
