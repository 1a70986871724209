import Courier.Envelope.Basic
import Courier.Error
/-
The single calls that an operation makes on its surroundings: the store, the buses, the clock, the
source of fresh identifiers and the counters.  Everything between two calls of an operation is its
own affair; what several workers do at once is an interleaving of their calls.
-/
namespace Courier

/-- An event that is counted while the library runs. -/
inductive Sample where
  | staged (delivery : Delivery)
  | duplicateReceived
  | tickDone
  | messageError
  | claimReclaimed
  | processed (delivery : Delivery)
  | retried
  | deferred
  | claimLost
  | deadLettered (delivery : Delivery)
deriving DecidableEq, Repr

/-- One call.  `κ` is the type of the commands that in-process handlers take. -/
inductive Call (κ : Type) where
  /-- Open a transaction. -/
  | begin
  | get (id : RowId)
  | find (filter : RowFilter)
  /-- Fetch the rows that are due. -/
  | due (query : DueQuery)
  /-- Change a row if it is as expected. -/
  | swap (change : Change)
  /-- The statuses of the outgoing rows of a message. -/
  | outgoing (id : MessageId)
  /-- Read a committed document. -/
  | document (collection key : String)
  /-- Stage a message in a transaction. -/
  | stage (tx : Transaction) (draft : Draft)
  /-- Read a document as a transaction sees it. -/
  | documentIn (tx : Transaction) (collection key : String)
  | saveDocument (tx : Transaction) (collection key : String) (body : Json) (expected : Int)
  | commit (tx : Transaction)
  /-- Hand an envelope to the external bus. -/
  | publish (routingKey : String) (envelope : RawEnvelope)
  /-- Run the handler of a command. -/
  | handle (command : Envelope κ)
  /-- Read the clock. -/
  | now
  /-- Take a fresh identifier. -/
  | mint
  | count (sample : Sample)
  /-- Read the counters, one line for each. -/
  | samples

/-- What a call is answered with. -/
def Call.Answer {κ : Type} : Call κ → Type
  | .begin => Except StoreError Transaction
  | .get _ => Except StoreError (Option Row)
  | .find _ => Except StoreError (List Row)
  | .due _ => Except StoreError (List Row)
  | .swap _ => Except StoreError (Option Row)
  | .outgoing _ => Except StoreError (List Status)
  | .document _ _ => Except StoreError (Option Document)
  | .stage _ _ => Except StoreError (Transaction × Row)
  | .documentIn _ _ _ => Except StoreError (Option Document)
  | .saveDocument _ _ _ _ _ => Except StoreError (Transaction × Document)
  | .commit _ => Except StoreError Unit
  | .publish _ _ => Except BusError Unit
  | .handle _ => Except MessagingError Unit
  | .now => Instant
  | .mint => Uuid
  | .count _ => Unit
  | .samples => List String

end Courier
