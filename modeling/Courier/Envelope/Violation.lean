import Courier.Identity.Ids
import Courier.Time.Text
/-
The rules an envelope has to keep, as the violations that are reported.
-/
namespace Courier

/-- One violated rule. -/
inductive Violation where
  | blankHeaderKey
  | reservedHeader (key : String)
  | blankCorrelationId
  | selfCausation (id : MessageId)
  | createdInFuture (createdAt : Instant) (now : Instant)
deriving DecidableEq, Repr

namespace Violation

def message : Violation → String
  | .blankHeaderKey => "header key must not be blank"
  | .reservedHeader key => "header '" ++ key ++ "' is reserved"
  | .blankCorrelationId => "correlation id must not be nil"
  | .selfCausation id => "message " ++ id.text ++ " cannot be its own cause"
  | .createdInFuture createdAt now =>
      "created_at " ++ createdAt.sentence ++ " is in the future (now " ++ now.sentence ++ ")"

/-- All violations in the order they were found. -/
def report (violations : List Violation) : String :=
  "; ".intercalate (violations.map message)

/-- A value, unless rules were violated. -/
def guarding {α : Type} (violations : List Violation) (value : α) : Except (List Violation) α :=
  match violations with
  | [] => .ok value
  | found => .error found

end Violation

end Courier
