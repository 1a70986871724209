import Courier.Program.Basic
/-
The custodian, the only writer of the status of stored rows.  Each of its operations checks the row
it was given against the delivery state machine and then changes the row only if nobody else has
changed it since.
-/
namespace Courier

/-- The limits under which rows are moved on. -/
structure Custodian where
  /-- Failed attempts, and deferrals, before a row becomes a dead letter. -/
  maxRetries : Count
  /-- How long a claim holds. -/
  claimTimeout : Span
deriving DecidableEq, Repr

namespace Custodian

variable {κ : Type}

def standard : Custodian := ⟨5, Span.ofSeconds 300⟩

/-- When a claim made now runs out. -/
def claimDeadline (custodian : Custodian) (now : Instant) : Instant :=
  now.after custodian.claimTimeout

/-- The row may move to `next`. -/
def check (custodian : Custodian) (row : Row) (next : Status) : Except MessagingError Unit :=
  match row.refusal? next custodian.maxRetries with
  | none => .ok ()
  | some reason => .error (.invalidTransition row.id row.status next reason)

def claimChange (custodian : Custodian) (row : Row) (now : Instant) : Change :=
  { Change.of row with status := .processing, nextAttemptAt := custodian.claimDeadline now }

/-- A successful end of a row's delivery. -/
def processedChange (row : Row) (now : Instant) : Change :=
  { Change.of row with status := .processed, lastProcessedAt := some now }

/-- A failed attempt.  The one that reaches the ceiling makes the row a dead letter. -/
def failureChange (custodian : Custodian) (row : Row) (reason : Option String) (now : Instant) :
    Change :=
  let retries := Count.next row.retries
  { Change.of row with
    status := .failed
    retries := retries
    lastProcessedAt := some now
    lastError := reason <|> row.lastError
    deadLettered := decide (custodian.maxRetries ≤ retries) }

/-- A failure for good, which counts no attempt. -/
def malformedChange (row : Row) (reason : String) (now : Instant) : Change :=
  { Change.of row with
    status := .failed
    lastProcessedAt := some now
    lastError := some reason
    deadLettered := true }

/-- Why a claim that has run out was taken over. -/
def expiryReason (row : Row) : String :=
  "claim expired at " ++ row.nextAttemptAt.sentence

/-- The takeover of a claim that has run out.  It counts as a failed attempt. -/
def reclaimChange (custodian : Custodian) (row : Row) (now : Instant) : Change :=
  let attempts := Count.next row.retries
  if custodian.maxRetries ≤ attempts then
    custodian.failureChange row (some (expiryReason row)) now
  else
    { Change.of row with
      retries := attempts
      lastError := some (expiryReason row)
      nextAttemptAt := custodian.claimDeadline now }

/-- A postponement of a row whose cause is still on its way.  The one that reaches the ceiling makes
the row a dead letter. -/
def deferChange (custodian : Custodian) (row : Row) (next : Instant) : Change :=
  let deferrals := Count.next row.deferrals
  let postponed := { Change.of row with deferrals := deferrals, nextAttemptAt := next }
  if custodian.maxRetries ≤ deferrals then
    { postponed with
      deadLettered := true
      lastError := some ("cause unresolved after " ++ toString deferrals.toNat ++ " deferrals") }
  else postponed

/-- A row is held by a claim that has run out. -/
def hasExpired (row : Row) (now : Instant) : Bool :=
  !row.deadLettered && row.status == .processing && decide (row.nextAttemptAt ≤ now)

/-- A row may be postponed. -/
def mayDefer (row : Row) : Bool :=
  !row.deadLettered && (row.status == .stored || row.status == .failed)

def swap (change : Change) : Attempt κ MessagingError (Option Row) :=
  Attempt.calling .store (Program.perform (.swap change))

/-- Change a row; a row that is no longer as expected is a conflict. -/
def apply (change : Change) : Attempt κ MessagingError Row := do
  match ← swap change with
  | some row => return row
  | none => throw (.claimConflict change.id)

def get (id : RowId) : Attempt κ MessagingError (Option Row) :=
  Attempt.calling .store (Program.perform (.get id))

def find (filter : RowFilter) : Attempt κ MessagingError (List Row) :=
  Attempt.calling .store (Program.perform (.find filter))

/-- The rows that need an operator. -/
def deadLetters : Attempt κ MessagingError (List Row) :=
  find { deadLettered := some true }

/-- The next rows to take up. -/
def due (custodian : Custodian) (now : Instant) (limit : Nat) :
    Attempt κ MessagingError (List Row) :=
  Attempt.calling .store
    (Program.perform (.due (DueQuery.all now custodian.maxRetries limit)))

/-- The change that moves a row along one edge of the state machine. -/
def statusChange (custodian : Custodian) (row : Row) (next : Status) (now : Instant) : Change :=
  match next with
  | .failed => custodian.failureChange row none now
  | .processing =>
      { Change.of row with status := next, nextAttemptAt := custodian.claimDeadline now }
  | .processed => { Change.of row with status := next, lastProcessedAt := some now }
  | .stored => { Change.of row with status := next }

/-- Move a row along one edge of the state machine, as an operator may ask. -/
def changeStatus (custodian : Custodian) (id : RowId) (next : Status) :
    Attempt κ MessagingError Row := do
  match ← get id with
  | none => throw (.store (.notFound id))
  | some row =>
      Attempt.ofExcept (custodian.check row next)
      let now ← Program.now κ
      apply (custodian.statusChange row next now)

/-- Claim a row as of `now`.  None means that another worker was there first. -/
def claimAt (custodian : Custodian) (row : Row) (now : Instant) :
    Attempt κ MessagingError (Option Row) := do
  Attempt.ofExcept (custodian.check row .processing)
  swap (custodian.claimChange row now)

def claim (custodian : Custodian) (row : Row) : Attempt κ MessagingError (Option Row) := do
  let now ← Program.now κ
  custodian.claimAt row now

/-- Take over a claim that has run out, or give the row up at the ceiling. -/
def reclaim (custodian : Custodian) (row : Row) (now : Instant) :
    Attempt κ MessagingError (Option Row) := do
  if hasExpired row now then swap (custodian.reclaimChange row now)
  else throw (.invalidTransition row.id row.status .processing .illegalEdge)

def markProcessed (custodian : Custodian) (row : Row) : Attempt κ MessagingError Row := do
  Attempt.ofExcept (custodian.check row .processed)
  let now ← Program.now κ
  apply (processedChange row now)

/-- Record a failure after which delivery is tried again at `next`, unless it was the last one. -/
def recordFailure (custodian : Custodian) (row : Row) (reason : String) (next : Instant) :
    Attempt κ MessagingError Row := do
  Attempt.ofExcept (custodian.check row .failed)
  let now ← Program.now κ
  apply { custodian.failureChange row (some reason) now with nextAttemptAt := next }

def markMalformed (custodian : Custodian) (row : Row) (reason : String) :
    Attempt κ MessagingError Row := do
  Attempt.ofExcept (custodian.check row .failed)
  let now ← Program.now κ
  apply (malformedChange row reason now)

/-- Postpone a row whose cause is still on its way.  None means that another writer was there
first. -/
def defer (custodian : Custodian) (row : Row) (next : Instant) :
    Attempt κ MessagingError (Option Row) := do
  if mayDefer row then swap (custodian.deferChange row next)
  else throw (.invalidTransition row.id row.status row.status .illegalEdge)

/-- No outgoing row of the message is still on its way.  A message that was never stored counts as
resolved. -/
def causeResolved (id : MessageId) : Attempt κ MessagingError Bool := do
  let statuses ← Attempt.calling .store (Program.perform (.outgoing id))
  return statuses.all (· == .processed)

end Custodian

end Courier
