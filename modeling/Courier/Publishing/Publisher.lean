import Courier.Custody.Custodian
import Courier.Publishing.Router
import Courier.Publishing.Settings
/-
The publisher.  A tick takes a batch of rows that are due, and claims, delivers and settles each.  A
row that fails does not end the batch; only a failed fetch ends the tick.
-/
namespace Courier

/-- What one tick did. -/
structure TickReport where
  fetched : Nat := 0
  claimed : Nat := 0
  lostClaims : Nat := 0
  processed : Nat := 0
  retried : Nat := 0
  deadLettered : Nat := 0
  deferred : Nat := 0
  reclaimed : Nat := 0
  errors : Nat := 0
deriving DecidableEq, Repr

/-- There was nothing to do. -/
def TickReport.isIdle (report : TickReport) : Bool :=
  report.fetched == 0

/-- A step of a tick: it adds to the tick's report, and may fail for the row at hand. -/
abbrev TickStep (κ α : Type) := ExceptT MessagingError (StateT TickReport (Program κ)) α

namespace TickStep

variable {κ α : Type}

/-- An attempt as a step that reports nothing. -/
def of (attempt : Attempt κ MessagingError α) : TickStep κ α :=
  ExceptT.mk fun report => do return (← attempt.run, report)

/-- Add to the report and count the event. -/
def record (sample : Sample) (change : TickReport → TickReport) : TickStep κ Unit := do
  modify change
  Program.count κ sample

def runFrom (step : TickStep κ α) (report : TickReport) :
    Program κ (Except MessagingError α × TickReport) :=
  step.run.run report

end TickStep

/-- A publisher: a router, and the settings under which it delivers. -/
structure Publisher (κ : Type) where
  router : Router κ
  settings : PublisherSettings

namespace Publisher

variable {κ : Type}

/-- A publisher with settings that it can run with. -/
def create (router : Router κ) (settings : PublisherSettings) :
    Except PublisherError (Publisher κ) :=
  match settings.fault? with
  | none => .ok ⟨router, settings⟩
  | some fault => .error (.settings fault)

def custodian (publisher : Publisher κ) : Custodian :=
  ⟨publisher.settings.maxRetries, publisher.settings.claimTimeout⟩

/-- When a row may be tried again after its `attempt`-th failure or deferral. -/
def nextAttemptAt (publisher : Publisher κ) (now : Instant) (attempt : Count) : Instant :=
  publisher.settings.backoff.nextAttemptAt now attempt

/-- Another worker was there first. -/
def lostClaim : TickStep κ Unit :=
  TickStep.record .claimLost fun report => { report with lostClaims := report.lostClaims + 1 }

def becameDeadLetter (row : Row) : TickStep κ Unit :=
  TickStep.record (.deadLettered row.delivery) fun report =>
    { report with deadLettered := report.deadLettered + 1 }

/-- The outcome of settling a claim.  None means that the claim was lost meanwhile. -/
def settle (outcome : Attempt κ MessagingError Row) : TickStep κ (Option Row) := do
  match ← (outcome.run : Program κ _) with
  | .ok row => return some row
  | .error (.claimConflict _) =>
      lostClaim
      return none
  | .error error => throw error

/-- Postpone a row whose cause is still on its way. -/
def postpone (publisher : Publisher κ) (row : Row) (now : Instant) : TickStep κ Unit := do
  let next := publisher.nextAttemptAt now (Count.next row.deferrals)
  match ← TickStep.of (publisher.custodian.defer row next) with
  | none => lostClaim
  | some changed =>
      if changed.deadLettered then becameDeadLetter changed
      else TickStep.record .deferred fun report => { report with deferred := report.deferred + 1 }

def giveUp (publisher : Publisher κ) (claimed : Row) (reason : String) : TickStep κ Unit := do
  match ← settle (publisher.custodian.markMalformed claimed reason) with
  | some row => becameDeadLetter row
  | none => return ()

/-- Settle a claimed row that was delivered. -/
def settleDelivered (publisher : Publisher κ) (claimed : Row) : TickStep κ Unit := do
  match ← settle (publisher.custodian.markProcessed claimed) with
  | some _ =>
      TickStep.record (.processed claimed.delivery) fun report =>
        { report with processed := report.processed + 1 }
  | none => return ()

/-- Settle a claimed row whose delivery may succeed later. -/
def settleFailed (publisher : Publisher κ) (claimed : Row) (reason : String) (now : Instant) :
    TickStep κ Unit := do
  let next := publisher.nextAttemptAt now (Count.next claimed.retries)
  match ← settle (publisher.custodian.recordFailure claimed reason next) with
  | some row =>
      if row.deadLettered then becameDeadLetter row
      else TickStep.record .retried fun report => { report with retried := report.retried + 1 }
  | none => return ()

/-- Deliver a claimed row and settle it by the outcome. -/
def deliver (publisher : Publisher κ) (claimed : Row) (now : Instant) : TickStep κ Unit := do
  modify fun report => { report with claimed := report.claimed + 1 }
  match publisher.router.decode claimed with
  | .error error => publisher.giveUp claimed error.message
  | .ok envelope =>
      match ← (publisher.router.deliver claimed envelope : Program κ _) with
      | .ok () => publisher.settleDelivered claimed
      | .error error =>
          if error.isRetryable then publisher.settleFailed claimed error.message now
          else publisher.giveUp claimed error.message

/-- Take over a row whose claim has run out.  Its cause was resolved when it was first claimed. -/
def takeOver (publisher : Publisher κ) (row : Row) (now : Instant) : TickStep κ Unit := do
  match ← TickStep.of (publisher.custodian.reclaim row now) with
  | none => lostClaim
  | some claimed =>
      if claimed.deadLettered then becameDeadLetter claimed
      else
        TickStep.record .claimReclaimed fun report =>
          { report with reclaimed := report.reclaimed + 1 }
        publisher.deliver claimed now

/-- Take up a row that nobody holds. -/
def takeUp (publisher : Publisher κ) (row : Row) (now : Instant) : TickStep κ Unit := do
  match ← TickStep.of (publisher.custodian.claimAt row now) with
  | none => lostClaim
  | some claimed => publisher.deliver claimed now

/-- Handle one candidate. -/
def process (publisher : Publisher κ) (row : Row) (now : Instant) : TickStep κ Unit := do
  if row.status = .processing then publisher.takeOver row now
  else
    match row.causationId with
    | none => publisher.takeUp row now
    | some cause =>
        if ← TickStep.of (Custodian.causeResolved cause) then publisher.takeUp row now
        else publisher.postpone row now

/-- Handle the candidates in order.  A failure is counted and the next candidate follows. -/
def processAll (publisher : Publisher κ) (now : Instant) :
    List Row → TickReport → Program κ TickReport
  | [], report => return report
  | row :: rest, report => do
      match ← (publisher.process row now).runFrom report with
      | (.ok (), report) => publisher.processAll now rest report
      | (.error _, report) =>
          Program.count κ .messageError
          publisher.processAll now rest { report with errors := report.errors + 1 }

/-- One delivery cycle as of `now`. -/
def tickAt (publisher : Publisher κ) (now : Instant) : Attempt κ PublisherError TickReport := do
  let rows ← Attempt.calling .messaging
    (publisher.custodian.due now publisher.settings.batchSize).run
  let report ← (publisher.processAll now rows { fetched := rows.length } : Program κ TickReport)
  Program.count κ .tickDone
  return report

/-- One delivery cycle at the current time. -/
def tick (publisher : Publisher κ) : Attempt κ PublisherError TickReport := do
  let now ← Program.now κ
  publisher.tickAt now

/-- Tick until a batch is not full or a tick fails, at most `fuel` times. -/
def drain (publisher : Publisher κ) : Nat → Program κ Unit
  | 0 => return ()
  | fuel + 1 => do
      match ← publisher.tick.run with
      | .ok report =>
          if publisher.settings.batchSize ≤ report.fetched then publisher.drain fuel
          else return ()
      | .error _ => return ()

end Publisher

end Courier
