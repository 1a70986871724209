import Courier.Custody.Staging
import Courier.Reaction.Event
/-
Reactions to domain events.  They run inside the transaction that changes the aggregate, event by
event in raise order and reaction by reaction in the order of registration; the first failure ends
the run.
-/
namespace Courier

/-- A reaction to domain events.  The context it is given names the event as the cause of whatever
it stages. -/
structure Reaction (κ ε : Type) where
  name : String
  run : Context → Envelope ε → Work κ Unit

namespace Reaction

variable {κ ε : Type}

/-- Run a reaction; its failure names it and the type of the event. -/
def react (reaction : Reaction κ ε) (eventType : String) (ctx : Context) (event : Envelope ε) :
    Work κ Unit :=
  Work.of fun tx => do
    match ← (reaction.run ctx event).inside tx with
    | (.ok (), tx) => return (.ok (), tx)
    | (.error error, tx) => return (.error (.reaction reaction.name eventType error.message), tx)

def reactAll (eventType : String) (ctx : Context) (event : Envelope ε) :
    List (Reaction κ ε) → Work κ Unit
  | [] => return ()
  | reaction :: rest => do
      reaction.react eventType ctx event
      reactAll eventType ctx event rest

/-- Wrap each event in a context and run the reactions to it. -/
def dispatchInOrder [DomainEvent ε] (reactions : List (Reaction κ ε)) (ctx : Context) :
    List (RaisedEvent ε) → Work κ Unit
  | [] => return ()
  | raised :: rest => do
      let envelope ← (Envelope.wrapEvent raised.event ctx : Program κ (Envelope ε))
      reactAll (DomainEvent.eventType raised.event) (Context.causedBy envelope.metadata) envelope
        reactions
      dispatchInOrder reactions ctx rest

/-- Dispatch raised events and answer how many there were. -/
def dispatch [DomainEvent ε] (reactions : List (Reaction κ ε)) (ctx : Context)
    (events : List (RaisedEvent ε)) : Work κ Nat := do
  dispatchInOrder reactions ctx (raiseOrder events)
  return events.length

end Reaction

/-- A business transaction: the change of an aggregate with the messages that its events stage.
Unless it is committed, nothing of it is kept. -/
structure UnitOfWork where
  ctx : Context
  tx : Transaction
  dispatched : Nat

namespace UnitOfWork

variable {κ ε α : Type}

def begin (ctx : Context) : Attempt κ MessagingError UnitOfWork := do
  let tx ← Staging.begin
  return ⟨ctx, tx, 0⟩

/-- Do work in the transaction. -/
def perform (unit : UnitOfWork) (work : Work κ α) :
    Program κ (Except MessagingError α × UnitOfWork) := do
  let (outcome, tx) ← work.inside unit.tx
  return (outcome, { unit with tx := tx })

def dispatch [DomainEvent ε] (unit : UnitOfWork) (reactions : List (Reaction κ ε))
    (events : List (RaisedEvent ε)) : Attempt κ MessagingError (Nat × UnitOfWork) := do
  let (outcome, unit) ← (unit.perform (Reaction.dispatch reactions unit.ctx events) : Program κ _)
  let count ← Attempt.ofExcept outcome
  return (count, { unit with dispatched := unit.dispatched + count })

/-- Dispatch batches of events one after another, and answer how many there were in each. -/
def dispatchAll [DomainEvent ε] (reactions : List (Reaction κ ε)) :
    UnitOfWork → List (List (RaisedEvent ε)) → Attempt κ MessagingError (List Nat × UnitOfWork)
  | unit, [] => return ([], unit)
  | unit, batch :: rest => do
      let (count, unit) ← unit.dispatch reactions batch
      let (counts, unit) ← dispatchAll reactions unit rest
      return (count :: counts, unit)

/-- Commit, and answer how many events were dispatched. -/
def commit (unit : UnitOfWork) : Attempt κ MessagingError Nat := do
  Staging.commit unit.tx
  return unit.dispatched

end UnitOfWork

end Courier
