import Courier.Proofs.Custody.Orderly
import Courier.Publishing.Publisher
/-
The protocol of a publisher.  A tick changes a row only in one of six ways, and each depends on what
the tick was told before: the batch that it was given, the cause that it found resolved, the claim
that it won, and what the bus answered when the claimed row was handed over.
-/
namespace Courier

variable {κ σ α β : Type}

structure Shift (κ : Type) where
  publisher : Publisher κ
  now : Instant

/-- The claim that a worker has at hand, and whether it was handed over. -/
inductive Hold where
  | nothing
  | claimed (row : Row)
  | handed (row : Row) (delivered : Bool)

namespace Hold

def row? : Hold → Option Row
  | .nothing => none
  | .claimed row => some row
  | .handed row _ => some row

def undelivered? : Hold → Option Row
  | .claimed row => some row
  | .handed row false => some row
  | _ => none

def handOver (hold : Hold) (delivered : Bool) : Hold :=
  match hold.row? with
  | some row => .handed row delivered
  | none => .nothing

/-- A change settles the claim at hand, if there is one, by what became of it. -/
def SettledBy (change : Change) : Hold → Prop
  | .nothing => True
  | .claimed row => change.fits row = true ∧ change.status = .failed
  | .handed row delivered =>
      change.fits row = true ∧ change.status = if delivered then .processed else .failed

theorem settledBy_of_undelivered {hold : Hold} {row : Row} {change : Change}
    (h : hold.undelivered? = some row) (hfits : change.fits row = true)
    (hstatus : change.status = .failed) : hold.SettledBy change := by
  cases hold with
  | nothing => cases h
  | claimed claimed =>
      obtain rfl := Option.some.inj h
      exact ⟨hfits, hstatus⟩
  | handed claimed delivered =>
      cases delivered with
      | false =>
          obtain rfl := Option.some.inj h
          exact ⟨hfits, hstatus⟩
      | true => cases h

end Hold

/-- What a worker was told last: its batch, a cause that is resolved since, and the claim at hand. -/
structure Phase where
  batch : List Row
  resolved : Option MessageId
  hold : Hold

namespace Phase

def start : Phase := ⟨[], none, .nothing⟩

def next (phase : Phase) : (call : Call κ) → call.Answer → Phase
  | .due _, Except.ok rows => { phase with batch := rows, resolved := none }
  | .outgoing id, Except.ok statuses =>
      { phase with resolved := if statuses.all (· == .processed) then some id else none }
  | .outgoing _, Except.error _ => { phase with resolved := none }
  | .swap _, Except.ok (some row) =>
      { phase with hold := if row.status = .processing then .claimed row else .nothing }
  | .swap _, _ => { phase with hold := .nothing }
  | .publish _ _, answer => { phase with hold := phase.hold.handOver answer.isOk }
  | .handle _, answer => { phase with hold := phase.hold.handOver answer.isOk }
  | _, _ => phase

def known (phase : Phase) : List Row :=
  phase.batch ++ phase.hold.row?.toList

end Phase

namespace Shift

def query (shift : Shift κ) : DueQuery :=
  DueQuery.all shift.now shift.publisher.settings.maxRetries shift.publisher.settings.batchSize

/-- The changes that a tick makes, each with what the tick relies on. -/
inductive Turn (shift : Shift κ) (phase : Phase) (row : Row) : Change → Prop where
  | claim (hrow : row ∈ phase.batch) (hdue : shift.query.selects row = true)
      (hlook : row.refusal? .processing shift.publisher.custodian.maxRetries = none)
      (hcause : ∀ cause, row.causationId = some cause → phase.resolved = some cause) :
      Turn shift phase row (shift.publisher.custodian.claimChange row shift.now)
  | takeOver (hrow : row ∈ phase.batch) (hdue : shift.query.selects row = true)
      (hlook : Custodian.hasExpired row shift.now = true) :
      Turn shift phase row (shift.publisher.custodian.reclaimChange row shift.now)
  | postpone (hrow : row ∈ phase.batch) (hdue : shift.query.selects row = true)
      (hlook : Custodian.mayDefer row = true) :
      Turn shift phase row (shift.publisher.custodian.deferChange row
        (shift.publisher.nextAttemptAt shift.now (Count.next row.deferrals)))
  | succeed (clock : Instant) (hhold : phase.hold = .handed row true)
      (hlook : row.refusal? .processed shift.publisher.custodian.maxRetries = none) :
      Turn shift phase row (Custodian.processedChange row clock)
  | fail (reason : String) (clock : Instant) (hhold : phase.hold.undelivered? = some row)
      (hlook : row.refusal? .failed shift.publisher.custodian.maxRetries = none) :
      Turn shift phase row
        { shift.publisher.custodian.failureChange row (some reason) clock with
          nextAttemptAt := shift.publisher.nextAttemptAt shift.now (Count.next row.retries) }
  | giveUp (reason : String) (clock : Instant) (hhold : phase.hold.undelivered? = some row)
      (hlook : row.refusal? .failed shift.publisher.custodian.maxRetries = none) :
      Turn shift phase row (Custodian.malformedChange row reason clock)

def HandsOver (shift : Shift κ) (row : Row) (call : Call κ) : Prop :=
  ∃ envelope, shift.publisher.router.decode row = .ok envelope ∧
    ∃ next, shift.publisher.router.deliver row envelope = .ask call next

def allows (shift : Shift κ) (phase : Phase) : Call κ → Prop
  | .due query => query = shift.query
  | .outgoing _ => True
  | .now => True
  | .count _ => True
  | .swap change => ∃ row, shift.Turn phase row change
  | .publish key envelope =>
      ∃ row, phase.hold = .claimed row ∧ shift.HandsOver row (.publish key envelope)
  | .handle command => ∃ row, phase.hold = .claimed row ∧ shift.HandsOver row (.handle command)
  | _ => False

def protocol (shift : Shift κ) : Protocol κ Phase :=
  ⟨shift.allows, Phase.next⟩

/-- The protocol of a tick that settles each claim before it makes any other change. -/
def settling (shift : Shift κ) : Protocol κ Phase where
  allows phase call := shift.allows phase call ∧
    ∀ change, call = .swap change → phase.hold.SettledBy change
  next := Phase.next

theorem settling_of_allows {shift : Shift κ} {phase : Phase} {call : Call κ}
    (h : shift.allows phase call) (hother : call.isSwap = false) : shift.settling.allows phase call := by
  refine ⟨h, fun change hcall => ?_⟩
  rw [hcall] at hother
  cases hother

end Shift

/-- Whatever a step reports, it keeps to the protocol and ends as it should. -/
def TickStep.Keeps (protocol : Protocol κ σ) (ends : Except MessagingError α → σ → Prop)
    (step : TickStep κ α) (phase : σ) : Prop :=
  ∀ report, (step.runFrom report).Keeps protocol (fun result phase => ends result.1 phase) phase

namespace TickStep.Keeps

variable {protocol : Protocol κ σ} {phase : σ}

theorem mono {ends others : Except MessagingError α → σ → Prop} {step : TickStep κ α}
    (h : step.Keeps protocol ends phase)
    (hends : ∀ outcome phase, ends outcome phase → others outcome phase) :
    step.Keeps protocol others phase := by
  intro report
  exact (h report).mono fun result phase hresult => hends result.1 phase hresult

theorem andThen {ends : Except MessagingError β → σ → Prop} {first : TickStep κ α}
    {f : α → TickStep κ β}
    (h : first.Keeps protocol (fun outcome phase =>
      (∀ value, outcome = .ok value → (f value).Keeps protocol ends phase) ∧
        ∀ error, outcome = .error error → ends (.error error) phase) phase) :
    TickStep.Keeps protocol ends (first >>= f) phase := by
  intro report
  refine Program.Keeps.bind ((h report).mono fun result phase hresult => ?_)
  obtain ⟨outcome, report⟩ := result
  cases outcome with
  | ok value => exact hresult.1 value rfl report
  | error error => exact hresult.2 error rfl

theorem of {ends : Except MessagingError α → σ → Prop} {attempt : Attempt κ MessagingError α}
    (h : Program.Keeps protocol ends attempt phase) :
    (TickStep.of attempt).Keeps protocol ends phase := by
  intro report
  exact Program.Keeps.bind (h.mono fun outcome phase houtcome => houtcome)

theorem lift {ends : Except MessagingError α → σ → Prop} {program : Program κ α}
    (h : program.Keeps protocol (fun value phase => ends (.ok value) phase) phase) :
    TickStep.Keeps protocol ends (liftM program : TickStep κ α) phase := by
  intro report
  exact Program.Keeps.bind (Program.Keeps.bind (h.mono fun value phase hvalue => hvalue))

theorem modify {ends : Except MessagingError PUnit → σ → Prop} {f : TickReport → TickReport}
    (h : ends (.ok ⟨⟩) phase) :
    TickStep.Keeps protocol ends (modify f : TickStep κ PUnit) phase :=
  fun _ => h

end TickStep.Keeps

end Courier
