import Courier.Error
import Courier.Publishing.Backoff
import Courier.Table
import Courier.Text.Blank
/-
The settings that all publishers of a service share.
-/
namespace Courier

/-- What a publisher cannot run with. -/
inductive SettingsFault where
  | noRetries
  | emptyBatch
  | noClaimTime
  | baseAboveCap (base cap : Span)
  | blankRoutingKey (typeName : String)
deriving DecidableEq, Repr

def SettingsFault.message : SettingsFault → String
  | .noRetries => "max_retries must be at least 1"
  | .emptyBatch => "batch_size must be at least 1"
  | .noClaimTime => "claim_timeout must be greater than zero"
  | .baseAboveCap base cap => "backoff_base " ++ base.text ++ " exceeds backoff_cap " ++ cap.text
  | .blankRoutingKey typeName => "blank routing key for " ++ typeName

structure PublisherSettings where
  /-- Failed attempts, and deferrals, before a message becomes a dead letter. -/
  maxRetries : Count := 5
  /-- The delay after the first failure. -/
  backoffBase : Span := Span.ofMillis 500
  /-- The longest delay. -/
  backoffCap : Span := Span.ofSeconds 60
  /-- How many candidates a tick takes. -/
  batchSize : Nat := 100
  /-- The wait between ticks when a batch was not full. -/
  pollInterval : Span := Span.ofSeconds 1
  /-- How long a claim holds. -/
  claimTimeout : Span := Span.ofSeconds 300
  /-- Routing keys by the name of the payload's type. -/
  routingKeys : Table String := Table.empty
deriving DecidableEq

namespace PublisherSettings

def backoff (settings : PublisherSettings) : Backoff :=
  ⟨settings.backoffBase, settings.backoffCap⟩

def blankKey? (settings : PublisherSettings) : Option String :=
  (settings.routingKeys.entries.find? fun entry => allBlank entry.2).map (·.1)

/-- The first thing that makes the settings unusable. -/
def fault? (settings : PublisherSettings) : Option SettingsFault :=
  if settings.maxRetries = 0 then some .noRetries
  else if settings.batchSize = 0 then some .emptyBatch
  else if settings.claimTimeout.nanos = 0 then some .noClaimTime
  else if settings.backoffCap < settings.backoffBase then
    some (.baseAboveCap settings.backoffBase settings.backoffCap)
  else settings.blankKey?.map .blankRoutingKey

end PublisherSettings

/-- A failure to set up or to run a publisher. -/
inductive PublisherError where
  | settings (fault : SettingsFault)
  | messaging (error : MessagingError)
deriving DecidableEq, Repr

def PublisherError.message : PublisherError → String
  | .settings fault => "Invalid outbox configuration: " ++ fault.message
  | .messaging error => error.message

end Courier
