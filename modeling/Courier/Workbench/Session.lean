import Courier.Custody.Custodian
import Courier.Custody.Staging
import Courier.Workbench.State
/-
Sessions: a workbench in use, with the service's settings, and the rows and open transactions that
are kept under names.
-/
namespace Courier

/-- A workbench in use. -/
structure Session where
  bench : Workbench
  settings : PublisherSettings := {}
  custodian : Custodian := Custodian.standard
  workers : Nat := 1
  rows : Table Row := Table.empty
  transactions : Table Transaction := Table.empty

/-- What is done in a session.  It has no result when it asks for something that is not there. -/
abbrev Script (α : Type) := StateT Session Option α

namespace Script

variable {ε α : Type}

def perform (program : Program Command α) : Script α := do
  let session ← get
  let (value, bench) := session.bench.perform program
  set { session with bench := bench }
  return value

def attempt (work : Attempt Command ε α) : Script (Except ε α) :=
  perform work.run

def call (call : Call Command) : Script call.Answer :=
  perform (Program.perform call)

/-- Change the workbench itself. -/
def alter (change : Workbench → Workbench) : Script Unit :=
  modify fun session => { session with bench := change session.bench }

/-- Change the external bus. -/
def alterBus (change : MemoryBus → MemoryBus) : Script Unit :=
  alter fun bench => { bench with bus := change bench.bus }

def alterStore (change : Store → Store) : Script Unit :=
  alter fun bench => { bench with store := change bench.store }

def setClock (time : Instant) : Script Unit :=
  alter fun bench => { bench with clock := time.onClock }

def moveClock (nanos : Int) : Script Unit :=
  alter fun bench => { bench with clock := bench.clock.shift nanos }

/-- Plan the ends of the next calls of the handler of probes. -/
def plan (outcomes : List (Option MessagingError)) : Script Unit :=
  alter fun bench =>
    { bench with probes := { bench.probes with outcomes := bench.probes.outcomes ++ outcomes } }

/-- Publish on the bus that keeps what it is given, also when another one is in use. -/
def publish (routingKey : String) (envelope : RawEnvelope) : Script (Except BusError Unit) := do
  let (outcome, bus) := (← get).bench.bus.publish routingKey envelope
  alterBus fun _ => bus
  return outcome

/-- The row that is kept under a name. -/
def row (name : String) : Script Row := do
  (← get).rows.get? name

/-- Keep rows, each under its name. -/
def keepRows (names : List String) (rows : List Row) : Script Unit :=
  modify fun session => { session with
    rows := (names.zip rows).foldl (fun table entry => table.insert entry.1 entry.2)
      session.rows }

/-- The open transaction with a name. -/
def transaction (name : String) : Script Transaction := do
  (← get).transactions.get? name

def keepTransaction (name : String) (tx : Transaction) : Script Unit :=
  modify fun session => { session with transactions := session.transactions.insert name tx }

def takeTransaction (name : String) : Script Transaction := do
  let tx ← transaction name
  modify fun session => { session with transactions := session.transactions.erase name }
  return tx

/-- Open a transaction under a name. -/
def begin (name : String) : Script (Except MessagingError Unit) := do
  match ← attempt Staging.begin with
  | .ok tx =>
      keepTransaction name tx
      return .ok ()
  | .error error => return .error error

/-- Commit an open transaction, whose name is free afterwards. -/
def commit (name : String) : Script (Except StoreError Unit) := do
  call (.commit (← takeTransaction name))

def saveDocument (name collection key : String) (body : Json) (expected : Int) :
    Script (Except StoreError Document) := do
  let made : Except StoreError (Transaction × Document) ←
    call (.saveDocument (← transaction name) collection key body expected)
  match made with
  | .ok (tx, document) =>
      keepTransaction name tx
      return .ok document
  | .error error => return .error error

/-- Read a document, as an open transaction sees it if one is named. -/
def document? (name : Option String) (collection key : String) :
    Script (Except StoreError (Option Document)) := do
  match name with
  | some name => call (.documentIn (← transaction name) collection key)
  | none => call (.document collection key)

/-- Work in the open transaction that is named, which stays open with what was written also when the
work fails, or else in a new one that is committed if the work succeeds.  The second failure is that
of the commit. -/
def work (name : Option String) (work : Work Command α) :
    Script (Except MessagingError (Except StoreError α)) := do
  match name with
  | some name =>
      let (outcome, tx) ← perform (work.inside (← transaction name))
      keepTransaction name tx
      return outcome.map .ok
  | none =>
      match ← attempt Staging.begin with
      | .error error => return .error error
      | .ok tx =>
          match ← perform (work.inside tx) with
          | (.error error, _) => return .error error
          | (.ok value, tx) =>
              let made : Except StoreError Unit ← call (.commit tx)
              return .ok (made.map fun _ => value)

def router : Script (Router Command) := do
  return ⟨Workbench.registry, (← get).settings.routingKeys⟩

def publisher : Script (Except PublisherError (Publisher Command)) := do
  return Publisher.create (← router) (← get).settings

end Script

end Courier
