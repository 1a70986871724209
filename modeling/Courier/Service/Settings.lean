import Courier.Publishing.Settings
import Courier.Text.Numeral
import Courier.Text.Split
/-
The settings of the service as its environment gives them.  A value that is missing or cannot be
read leaves the default in place.
-/
namespace Courier

structure ServiceSettings where
  host : String := "0.0.0.0"
  port : Nat := 3000
  logLevel : String := "info"
  /-- The database; without one the messages are kept in memory. -/
  databaseUrl : Option String := none
  /-- How many publishers run. -/
  workers : Nat := 1
  publishing : PublisherSettings := {}
deriving DecidableEq

/-- One `Type=key` pair; none when a part is missing or blank. -/
def routingPair? (segment : List Char) : Option (String × String) :=
  match splitAtFirst? '=' segment with
  | none => none
  | some (typeName, key) =>
      let typeName := trim typeName
      let key := trim key
      if typeName = [] ∨ key = [] then none
      else some (String.ofList typeName, String.ofList key)

/-- The routing keys of a list of pairs with commas between them.  What is no pair is skipped, and
of pairs for one type the last one counts. -/
def readRoutingKeys (text : String) : Table String :=
  Table.ofList ((splitAtEach ',' text.toList).filterMap routingPair?)

namespace ServiceSettings

def greatestNumber : Nat := 18446744073709551615

def greatestCount : Nat := 4294967295

/-- A number with blanks around it. -/
def readSetting? (value : Option String) : Option Nat :=
  value.bind fun text => (readNatural greatestNumber (trimmed text)).toOption

def readMillis (value : Option String) (standard : Span) : Span :=
  ((readSetting? value).map Span.ofMillis).getD standard

/-- The settings of the publishers. -/
def readPublishing (lookup : String → Option String) : PublisherSettings :=
  let standard : PublisherSettings := {}
  { maxRetries :=
      (((readSetting? (lookup "OUTBOX_MAX_RETRIES")).filter (· ≤ greatestCount)).map
        UInt32.ofNat).getD standard.maxRetries
    backoffBase := readMillis (lookup "OUTBOX_BACKOFF_BASE_MS") standard.backoffBase
    backoffCap := readMillis (lookup "OUTBOX_BACKOFF_CAP_MS") standard.backoffCap
    batchSize := (readSetting? (lookup "OUTBOX_BATCH_SIZE")).getD standard.batchSize
    pollInterval := readMillis (lookup "OUTBOX_POLL_INTERVAL_MS") standard.pollInterval
    claimTimeout := readMillis (lookup "OUTBOX_CLAIM_TIMEOUT_MS") standard.claimTimeout
    routingKeys := ((lookup "OUTBOX_ROUTING_KEYS").map readRoutingKeys).getD Table.empty }

/-- The settings that the environment's variables give. -/
def ofLookup (lookup : String → Option String) : ServiceSettings :=
  let standard : ServiceSettings := {}
  { host := (lookup "HOST").getD standard.host
    port := ((lookup "PORT").bind fun text => (readNatural 65535 text).toOption).getD standard.port
    logLevel := (lookup "RUST_LOG").getD standard.logLevel
    databaseUrl := (lookup "DATABASE_URL").filter fun url => !allBlank url
    workers := ((readSetting? (lookup "OUTBOX_WORKERS")).filter (0 < ·)).getD standard.workers
    publishing := readPublishing lookup }

/-- Where the service listens. -/
def address (settings : ServiceSettings) : String :=
  settings.host ++ ":" ++ toString settings.port

/-- The database connections that the service needs: two for each publisher and one more, as far as
32 bits go. -/
def maxConnections (settings : ServiceSettings) : Nat :=
  min (min (min settings.workers greatestCount * 2) greatestCount + 1) greatestCount

end ServiceSettings

end Courier
