import Courier.Envelope.Violation
import Courier.Store.State
/-
What can go wrong while messages are staged, delivered and handled, and how delivery failures turn
into failures of messaging and back.
-/
namespace Courier

/-- A failure while staging, delivering or handling messages. -/
inductive MessagingError where
  | store (error : StoreError)
  /-- A change of status that the delivery state machine does not allow. -/
  | invalidTransition (id : RowId) (current next : Status) (reason : Refusal)
  /-- Another writer changed the row between reading and writing. -/
  | claimConflict (id : RowId)
  | transportUnavailable (reason : String)
  | scheduling (reason : String)
  /-- The payload does not decode. -/
  | malformed (reason : String)
  | typeMismatch (expected actual : String)
  | unregistered (typeName : String)
  | invalidEnvelope (violations : List Violation)
  /-- A reaction to a domain event failed, and the transaction with it. -/
  | reaction (name eventType reason : String)
deriving DecidableEq, Repr

namespace MessagingError

def message : MessagingError → String
  | .store error => "Persistence error: " ++ error.message
  | .invalidTransition id current next reason =>
      "Invalid transition for message " ++ id.text ++ ": " ++ current.text ++ " -> " ++ next.text ++
        " (" ++ reason.message ++ ")"
  | .claimConflict id => "Claim conflict: message " ++ id.text ++ " was changed concurrently"
  | .transportUnavailable reason => "Transport unavailable: " ++ reason
  | .scheduling reason => "Scheduling error: " ++ reason
  | .malformed reason => "Malformed payload: " ++ reason
  | .typeMismatch expected actual => "Type mismatch: expected " ++ expected ++ ", found " ++ actual
  | .unregistered typeName => "Unregistered message type: " ++ typeName
  | .invalidEnvelope violations => "Invalid envelope: " ++ Violation.report violations
  | .reaction name eventType reason =>
      "Domain event handler " ++ name ++ " failed on " ++ eventType ++ ": " ++ reason

/-- The payload can never be handled. -/
def isPermanent : MessagingError → Bool
  | .malformed _ => true
  | .typeMismatch _ _ => true
  | .unregistered _ => true
  | _ => false

end MessagingError

/-- A failure of delivery at one of the buses. -/
inductive BusError where
  /-- The transport did not take the message over. -/
  | transportUnavailable (reason : String)
  /-- A command could not be scheduled, or its handler failed. -/
  | scheduling (reason : String)
  /-- The message can never be delivered. -/
  | malformed (reason : String)
deriving DecidableEq, Repr

namespace BusError

def message : BusError → String
  | .transportUnavailable reason => "Transport unavailable: " ++ reason
  | .scheduling reason => "Scheduling failed: " ++ reason
  | .malformed reason => "Malformed payload: " ++ reason

/-- A later attempt may succeed. -/
def isRetryable : BusError → Bool
  | .malformed _ => false
  | _ => true

/-- How a failure of messaging looks at the bus: what can never be handled is malformed, all else
but a transport failure is a failure of scheduling. -/
def ofMessaging : MessagingError → BusError
  | .transportUnavailable reason => .transportUnavailable reason
  | error => if error.isPermanent then .malformed error.message else .scheduling error.message

def toMessaging : BusError → MessagingError
  | .transportUnavailable reason => .transportUnavailable reason
  | .scheduling reason => .scheduling reason
  | .malformed reason => .malformed reason

@[simp]
theorem isRetryable_ofMessaging (error : MessagingError) :
    (ofMessaging error).isRetryable = !error.isPermanent := by
  cases error <;> rfl

end BusError

end Courier
