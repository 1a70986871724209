import Courier.Proofs.Custody.Clients
import Courier.Proofs.Publishing.Guards
import Courier.Proofs.Publishing.Runs
/-
Operators beside publishers.  An operator moves a row by naming the status that it should have, a
publisher by the operation that is made for the move.  Where nobody else writes to the store, the two
are let through and refused in the same cases and make the same change, but that a publisher also says
why an attempt has failed.
-/
namespace Courier

variable {κ α : Type}

namespace Store

/-- The answer to a call of the only one who is at work, and the store afterwards. -/
def alone (now : Instant) (call : Call κ) (store : Store) : call.Answer × Store :=
  store.respond { clock := now } call

/-- What an operation of the only one who is at work comes to, and the store afterwards. -/
def carryOut (κ : Type) (store : Store) (custodian : Custodian) (now : Instant)
    (operation : Operation) : Except MessagingError (Option Row) × Store :=
  Program.run (alone now)
    (operation.program custodian : Attempt κ MessagingError (Option Row)) store

end Store

/-- An operator and a publisher move a row alike.  Both are refused for the same reason and leave the
store as it was, or both change that row and nothing else, the publisher with what he has to report. -/
inductive Custodian.Alike (custodian : Custodian) (store : Store) (row : Row) (next : Status)
    (reported : Row → Row) : Except MessagingError (Option Row) × Store →
    Except MessagingError (Option Row) × Store → Prop where
  | refused (reason : Refusal) (hlook : row.refusal? next custodian.maxRetries = some reason) :
      Alike custodian store row next reported
        (.error (.invalidTransition row.id row.status next reason), store)
        (.error (.invalidTransition row.id row.status next reason), store)
  | moved (changed : Row) (hlook : row.refusal? next custodian.maxRetries = none)
      (hnext : changed.status = next) :
      Alike custodian store row next reported
        (.ok (some changed), store.withRow changed)
        (.ok (some (reported changed)), store.withRow (reported changed))

/-- What moving a row comes to, when it is changed in this way. -/
inductive Custodian.Moves (custodian : Custodian) (store : Store) (row : Row) (next : Status)
    (changed : Row) : Except MessagingError (Option Row) → Store → Prop where
  | refused (reason : Refusal) (hlook : row.refusal? next custodian.maxRetries = some reason) :
      Moves custodian store row next changed
        (.error (.invalidTransition row.id row.status next reason)) store
  | moved (hlook : row.refusal? next custodian.maxRetries = none) :
      Moves custodian store row next changed (.ok (some changed)) (store.withRow changed)

namespace Custodian

variable {custodian : Custodian} {store : Store} {row : Row} {now : Instant} {next : Status}
  {change : Change}

theorem ends_get (now : Instant) (store : Store) (id : RowId) :
    Program.Ends (Store.alone now) (get id : Attempt κ MessagingError (Option Row)) store
      fun outcome after => outcome = .ok (store.get? id) ∧ after = store :=
  Program.Ends.calling ⟨rfl, rfl⟩

section changes

variable (hrow : store.get? row.id = some row) (hfits : change.fits row = true)

include hrow hfits

theorem ends_change :
    Program.Ends (Store.alone now) (swap change : Attempt κ MessagingError (Option Row)) store
      fun outcome after => outcome = .ok (some (row.apply change)) ∧
        after = store.withRow (row.apply change) := by
  have hid : row.id = change.id := Change.id_of_fits hfits
  have hswap := Store.swap_of_fits (hid ▸ hrow) hfits
  refine Program.Ends.calling ⟨?_, ?_⟩
  · change ((store.swap change).2).mapError _ = _
    rw [hswap]
    rfl
  · change (store.swap change).1 = _
    rw [hswap]
    rfl

theorem ends_apply :
    Program.Ends (Store.alone now) (apply change : Attempt κ MessagingError Row) store
      fun outcome after => outcome = .ok (row.apply change) ∧
        after = store.withRow (row.apply change) := by
  refine Program.Ends.andThen (ends_change hrow hfits) ?_ ?_
  · rintro _ after ⟨⟨⟩, hafter⟩
    exact ⟨rfl, hafter⟩
  · rintro _ _ ⟨⟨⟩, _⟩

end changes

/-- A row is looked at before anything is done with it. -/
theorem ends_looked {rest : Unit → Attempt κ MessagingError α}
    {goal : Except MessagingError α → Store → Prop}
    (hrefused : ∀ reason, row.refusal? next custodian.maxRetries = some reason →
      goal (.error (.invalidTransition row.id row.status next reason)) store)
    (hallowed : row.refusal? next custodian.maxRetries = none →
      Program.Ends (Store.alone now) (rest ()) store goal) :
    Program.Ends (Store.alone now)
      (Attempt.ofExcept (custodian.check row next) >>= rest : Attempt κ MessagingError α)
      store goal := by
  cases hlook : row.refusal? next custodian.maxRetries with
  | none =>
      rw [ofExcept_checked hlook]
      exact hallowed hlook
  | some reason =>
      unfold check
      rw [hlook]
      exact hrefused reason hlook

/-- The clock shows the time. -/
theorem ends_clock {goal : Instant → Store → Prop} (h : goal now store) :
    (Program.now κ).Ends (Store.alone now) store goal :=
  h

section moves

variable (hrow : store.get? row.id = some row)

include hrow

/-- A row is changed as of the clock's time, once the look at it has let it through. -/
theorem ends_move {change : Instant → Change} (hfits : (change now).fits row = true) :
    Program.Ends (Store.alone now)
      (do
        Attempt.ofExcept (custodian.check row next)
        let clock ← (Program.now κ : Program κ Instant)
        apply (change clock) : Attempt κ MessagingError Row) store
      fun outcome => custodian.Moves store row next (row.apply (change now)) (outcome.map some) := by
  refine ends_looked (fun reason hlook => .refused reason hlook) fun hlook => ?_
  refine Program.Ends.lifting (ends_clock (Program.Ends.mono (ends_apply hrow hfits) ?_))
  rintro _ _ ⟨rfl, rfl⟩
  exact .moved hlook

theorem moves_changeStatus (hfits : (custodian.statusChange row next now).fits row = true) :
    Program.Ends (Store.alone now)
      ((Operation.changeStatus row.id next).program custodian : Attempt κ MessagingError (Option Row))
      store (custodian.Moves store row next (row.apply (custodian.statusChange row next now))) := by
  refine Program.Ends.map (Program.Ends.andThen (ends_get now store row.id) ?_ ?_)
  · rintro _ _ ⟨⟨⟩, rfl⟩
    rw [hrow]
    exact ends_move hrow hfits
  · rintro _ _ ⟨⟨⟩, _⟩

theorem moves_claimAt :
    Program.Ends (Store.alone now)
      ((Operation.claimAt row now).program custodian : Attempt κ MessagingError (Option Row))
      store (custodian.Moves store row .processing (row.apply (custodian.claimChange row now))) := by
  refine ends_looked (fun reason hlook => .refused reason hlook) fun hlook => ?_
  refine Program.Ends.mono (ends_change hrow (Change.fits_of row)) ?_
  rintro _ _ ⟨rfl, rfl⟩
  exact .moved hlook

theorem moves_markProcessed :
    Program.Ends (Store.alone now)
      ((Operation.markProcessed row).program custodian : Attempt κ MessagingError (Option Row))
      store (custodian.Moves store row .processed (row.apply (processedChange row now))) :=
  Program.Ends.map (ends_move hrow (Change.fits_of row))

theorem moves_recordFailure (reason : String) (due : Instant) :
    Program.Ends (Store.alone now)
      ((Operation.recordFailure row reason due).program custodian :
        Attempt κ MessagingError (Option Row)) store
      (custodian.Moves store row .failed (row.apply
        { custodian.failureChange row (some reason) now with nextAttemptAt := due })) :=
  Program.Ends.map (ends_move hrow (Change.fits_of row))

end moves

/-- Whoever moves a row by a change of his own, and whoever moves it by a change that differs in what
is reported, move it alike. -/
theorem Moves.alike {reported : Row → Row} {changed : Row}
    {operator publisher : Except MessagingError (Option Row)} {left settled : Store}
    (hoperator : custodian.Moves store row next changed operator left)
    (hpublisher : custodian.Moves store row next (reported changed) publisher settled)
    (hnext : changed.status = next) :
    custodian.Alike store row next reported (operator, left) (publisher, settled) := by
  cases hoperator with
  | refused reason hlook =>
      cases hpublisher with
      | refused other hother =>
          obtain rfl := Option.some.inj (hlook.symm.trans hother)
          exact .refused reason hlook
      | moved hallowed => cases hlook.symm.trans hallowed
  | moved hlook =>
      cases hpublisher with
      | refused other hother => cases hlook.symm.trans hother
      | moved _ => exact .moved changed hlook hnext

end Custodian

def Row.explained (reason : String) (row : Row) : Row :=
  { row with lastError := some reason }

/-- Where nobody else is at work, an operator who names the next status of a committed row and a
publisher who claims it, settles it, or records a failure without postponing it move the row alike, and
only the publisher's failure leaves a reason. -/
theorem operators_like_publishers (custodian : Custodian) {store : Store} {row : Row}
    (hrow : store.get? row.id = some row) (now : Instant) (reason : String) :
    custodian.Alike store row .processing id
      (store.carryOut κ custodian now (.changeStatus row.id .processing))
      (store.carryOut κ custodian now (.claimAt row now)) ∧
    custodian.Alike store row .processed id
      (store.carryOut κ custodian now (.changeStatus row.id .processed))
      (store.carryOut κ custodian now (.markProcessed row)) ∧
    custodian.Alike store row .failed (Row.explained reason)
      (store.carryOut κ custodian now (.changeStatus row.id .failed))
      (store.carryOut κ custodian now (.recordFailure row reason row.nextAttemptAt)) := by
  refine ⟨?_, ?_, ?_⟩
  · exact Custodian.Moves.alike (Custodian.moves_changeStatus hrow (Change.fits_of row))
      (Custodian.moves_claimAt hrow) rfl
  · exact Custodian.Moves.alike (Custodian.moves_changeStatus hrow (Change.fits_of row))
      (Custodian.moves_markProcessed hrow) rfl
  · exact Custodian.Moves.alike (Custodian.moves_changeStatus hrow (Change.fits_of row))
      (Custodian.moves_recordFailure hrow reason row.nextAttemptAt) rfl

/-- A row that is at its last attempt, for use in examples. -/
def lastTry : Row :=
  { Row.fresh ⟨1⟩ note epoch with status := .processing, retries := 4, version := 2 }

def lastTryStore : Store := ⟨[lastTry], [], 1, false⟩

theorem lastTry_given_up :
    lastTryStore.get? lastTry.id = some lastTry ∧
      Custodian.standard.Alike lastTryStore lastTry .processing id
        (lastTryStore.carryOut Unit .standard epoch (.changeStatus ⟨1⟩ .processing))
        (lastTryStore.carryOut Unit .standard epoch (.claimAt lastTry epoch)) ∧
      Custodian.standard.Alike lastTryStore lastTry .processed id
        (lastTryStore.carryOut Unit .standard epoch (.changeStatus ⟨1⟩ .processed))
        (lastTryStore.carryOut Unit .standard epoch (.markProcessed lastTry)) ∧
      Custodian.standard.Alike lastTryStore lastTry .failed (Row.explained "no route")
        (lastTryStore.carryOut Unit .standard epoch (.changeStatus ⟨1⟩ .failed))
        (lastTryStore.carryOut Unit .standard epoch
          (.recordFailure lastTry "no route" lastTry.nextAttemptAt)) ∧
      (lastTryStore.carryOut Unit .standard epoch (.changeStatus ⟨1⟩ .failed)).1 =
        .ok (some { lastTry with status := .failed, retries := 5, version := 3, deadLettered := true,
                                 lastProcessedAt := some epoch }) := by
  have hrow : lastTryStore.get? lastTry.id = some lastTry := by decide
  obtain ⟨hclaim, hsettle, hfail⟩ := operators_like_publishers .standard hrow epoch "no route"
  exact ⟨hrow, hclaim, hsettle, hfail, rfl⟩

end Courier
