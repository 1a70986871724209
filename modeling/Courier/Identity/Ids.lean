import Courier.Identity.Uuid
/-
The identifiers of the library.  A message and a chain of messages are named by UUIDs, a stored row
by the number that its store gave it.
-/
namespace Courier

/-- Names one message wherever it travels. -/
structure MessageId where
  uuid : Uuid
deriving DecidableEq, Repr

/-- Shared by every message of one causal chain. -/
structure CorrelationId where
  uuid : Uuid
deriving DecidableEq, Repr

/-- The number of a row in its store. -/
structure RowId where
  value : Int
deriving DecidableEq, Repr

def MessageId.text (id : MessageId) : String :=
  id.uuid.text

def MessageId.read? (text : String) : Option MessageId :=
  (Uuid.read? text).map MessageId.mk

def CorrelationId.text (id : CorrelationId) : String :=
  id.uuid.text

def CorrelationId.read? (text : String) : Option CorrelationId :=
  (Uuid.read? text).map CorrelationId.mk

def RowId.text (id : RowId) : String :=
  toString id.value

instance : LE MessageId := ⟨fun a b => a.uuid ≤ b.uuid⟩

instance (a b : MessageId) : Decidable (a ≤ b) := inferInstanceAs (Decidable (a.uuid ≤ b.uuid))

instance : LE CorrelationId := ⟨fun a b => a.uuid ≤ b.uuid⟩

instance (a b : CorrelationId) : Decidable (a ≤ b) := inferInstanceAs (Decidable (a.uuid ≤ b.uuid))

instance : LE RowId := ⟨fun a b => a.value ≤ b.value⟩

instance : LT RowId := ⟨fun a b => a.value < b.value⟩

instance (a b : RowId) : Decidable (a ≤ b) := inferInstanceAs (Decidable (a.value ≤ b.value))

instance (a b : RowId) : Decidable (a < b) := inferInstanceAs (Decidable (a.value < b.value))

end Courier
