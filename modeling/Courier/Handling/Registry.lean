import Courier.Envelope.Builder
import Courier.Envelope.Wire
import Courier.Program.Basic
import Courier.Text.Quoted
/-
The registry of message types, filled once at the start: which types are known, how each is told
from its JSON form, and which have a handler in this process.
-/
namespace Courier

/-- The handler of a type: it turns an envelope of the type into a command. -/
structure Handler (κ : Type) where
  name : String
  commandOf : RawEnvelope → Except MessagingError (Envelope κ)

/-- What is known of a registered type. -/
structure Registration (κ : Type) where
  /-- The envelope decodes as the type. -/
  decode : RawEnvelope → Except MessagingError Unit
  handler : Option (Handler κ)

structure Registry (κ : Type) where
  entries : Table (Registration κ)

namespace Registry

variable {κ : Type}

def empty : Registry κ := ⟨Table.empty⟩

/-- Decode an envelope as a type and forget the result. -/
def decodeAs (α : Type) [Message α] (raw : RawEnvelope) : Except MessagingError Unit := do
  let _ ← Envelope.unwrap α raw
  return ()

/-- Decode an envelope as a type and make its payload a command. -/
def commandAs (α : Type) [Message α] (command : α → κ) (raw : RawEnvelope) :
    Except MessagingError (Envelope κ) := do
  let envelope ← Envelope.unwrap α raw
  return ⟨command envelope.message, envelope.metadata⟩

/-- Register a type without a handler.  A type that is registered already stays as it is. -/
def register (registry : Registry κ) (α : Type) [Message α] : Registry κ :=
  let name := Message.typeName α
  if registry.entries.contains name then registry
  else ⟨registry.entries.insert name ⟨decodeAs α, none⟩⟩

/-- Register a type with its handler.  A later handler takes the place of an earlier one. -/
def registerHandler (registry : Registry κ) (α : Type) [Message α] (name : String)
    (command : α → κ) : Registry κ :=
  ⟨registry.entries.insert (Message.typeName α)
    ⟨decodeAs α, some ⟨name, commandAs α command⟩⟩⟩

def isRegistered (registry : Registry κ) (typeName : String) : Bool :=
  registry.entries.contains typeName

def hasHandler (registry : Registry κ) (typeName : String) : Bool :=
  (registry.entries.get? typeName).any (·.handler.isSome)

/-- The registered names in ascending order. -/
def typeNames (registry : Registry κ) : List String :=
  registry.entries.names

def wrap {α : Type} [Message α] (registry : Registry κ) (message : α) (ctx : Context) :
    Attempt κ MessagingError (Envelope α) := do
  if registry.isRegistered (Message.typeName α) then
    let envelope ← (Envelope.wrap message ctx : Program κ (Envelope α))
    return envelope
  else throw (.unregistered (Message.typeName α))

/-- The registration of the type that an envelope names. -/
def lookup (registry : Registry κ) (raw : RawEnvelope) :
    Except MessagingError (Registration κ) :=
  let name := raw.typeName?.getD noType
  match registry.entries.get? name with
  | some registration => .ok registration
  | none => .error (.unregistered name)

/-- An envelope decodes as the registered type that it names. -/
def decode (registry : Registry κ) (raw : RawEnvelope) : Except MessagingError Unit := do
  let registration ← registry.lookup raw
  registration.decode raw

/-- The command that the handler of an envelope's type is to run. -/
def command (registry : Registry κ) (raw : RawEnvelope) :
    Except MessagingError (Envelope κ) := do
  let registration ← registry.lookup raw
  match registration.handler with
  | some handler => handler.commandOf raw
  | none => .error (.scheduling ("no handler registered for " ++ raw.typeName?.getD noType))

def dispatch (registry : Registry κ) (raw : RawEnvelope) :
    Program κ (Except MessagingError Unit) :=
  match registry.command raw with
  | .ok command => Program.perform (.handle command)
  | .error error => .done (.error error)

/-- Run the handlers of several envelopes in order; the first failure ends the run. -/
def schedule (registry : Registry κ) : List RawEnvelope → Program κ (Except BusError Unit)
  | [] => .done (.ok ())
  | raw :: rest => do
      match ← registry.dispatch raw with
      | .ok () => registry.schedule rest
      | .error error => return .error (BusError.ofMessaging error)

/-- A report that names the registered types. -/
def report (registry : Registry κ) : String :=
  "MessageRegistry \x7b message_types: [" ++
    ", ".intercalate (registry.typeNames.map inQuotes) ++ "] \x7d"

end Registry

end Courier
