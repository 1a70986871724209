import Courier.Proofs.Publishing.Endings
import Courier.Proofs.Publishing.Shifts
/-
Reasons.  A tick makes a row a dead letter only on grounds that it was given: a counter has reached the
ceiling, or the claim at hand can never be delivered, by what the row says or by what was answered.
-/
namespace Courier

variable {κ τ ρ α β : Type}

def Call.unresolved? : (call : Call κ) → call.Answer → Option MessageId
  | .outgoing id, Except.ok statuses => if statuses.all (· == .processed) then none else some id
  | _, _ => none

/-- What a worker may give a row up on: the rows that it was shown, the claim that it has won last, what
was answered when that was handed over, and the message that it has found on its way last. -/
structure Ground (κ : Type) where
  seen : List Row
  claim : Option Row
  heard : Option (HandOver κ)
  waits : Option MessageId

namespace Ground

def start : Ground κ := ⟨[], none, none, none⟩

def next (ground : Ground κ) (call : Call κ) (answer : call.Answer) : Ground κ where
  seen := call.shown answer ++ ground.seen
  claim := if call.isSwap then (call.shown answer).find? (·.status == .processing) else ground.claim
  heard := if call.isSwap then none else (call.handOver? answer).or ground.heard
  waits := (call.unresolved? answer).or ground.waits

theorem heard_next {ground : Ground κ} {call : Call κ} (h : call.isSwap = false)
    (answer : call.Answer) :
    (ground.next call answer).heard = (call.handOver? answer).or ground.heard :=
  if_neg (ne_true_of_eq_false h)

def after (number : Nat) : List (Moment κ τ) → Ground κ
  | [] => start
  | moment :: past =>
      if moment.isBy number then (after number past).next moment.call moment.answer
      else after number past

@[simp]
theorem after_cons_by {number : Nat} {moment : Moment κ τ} {past : List (Moment κ τ)}
    (h : moment.isBy number = true) :
    after number (moment :: past) = (after number past).next moment.call moment.answer :=
  if_pos h

@[simp]
theorem after_cons_other {number : Nat} {moment : Moment κ τ} {past : List (Moment κ τ)}
    (h : moment.isBy number = false) : after number (moment :: past) = after number past :=
  if_neg (ne_true_of_eq_false h)

end Ground

namespace Shift

/-- The grounds on which a tick may give up the row that it changes. -/
inductive Grounds (shift : Shift κ) (ground : Ground κ) (row : Row) (change : Change) : Prop where
  | exhausted (hceiling : shift.publisher.settings.maxRetries ≤ change.retries)
  | waited (hceiling : shift.publisher.settings.maxRetries ≤ change.deferrals) {cause : MessageId}
      (hcause : row.causationId = some cause) (hwaits : ground.waits = some cause)
  | unreadable (hclaim : ground.claim = some row) {error : MessagingError}
      (hdecode : shift.publisher.router.decode row = .error error)
  | refused (hclaim : ground.claim = some row) {envelope : RawEnvelope} {error : BusError}
      (hdecode : shift.publisher.router.decode row = .ok envelope)
      (hdelivers : shift.publisher.router.Delivers row envelope ground.heard.toList (.error error))
      (hpermanent : error.isRetryable = false)

/-- A tick gives up no row without grounds. -/
def reasoning (shift : Shift κ) : Protocol κ (Ground κ) where
  allows ground call := ∀ change, call = .swap change → change.deadLettered = true →
    ∃ row ∈ ground.seen, change.fits row = true ∧ shift.Grounds ground row change
  next := Ground.next

end Shift

/-- Whatever is answered, no row is forgotten. -/
theorem Program.Keeps.seeing {shift : Shift κ} {ends : α → Ground κ → Prop} {program : Program κ α}
    {ground : Ground κ} (h : program.Keeps shift.reasoning ends ground) :
    program.Keeps shift.reasoning (fun value after => ends value after ∧ ground.seen ⊆ after.seen)
      ground := by
  induction program generalizing ground with
  | done value => exact ⟨h, fun _ hrow => hrow⟩
  | ask call next ih =>
      refine ⟨h.1, fun answer hlikely => (ih answer (h.2 answer hlikely)).mono ?_⟩
      exact fun value after ⟨hends, hseen⟩ =>
        ⟨hends, fun _ hrow => hseen (List.mem_append_right _ hrow)⟩

namespace Publisher

/-- However the step ends, it gives up no row without grounds. -/
abbrev Reasons (shift : Shift κ) (step : TickStep κ α) (ground : Ground κ) : Prop :=
  step.Keeps shift.reasoning (fun _ _ => True) ground

section steps

variable {shift : Shift κ} {ground : Ground κ} {row claimed : Row} {change : Change}

theorem Reasons.andThen {first : TickStep κ α} {f : α → TickStep κ β}
    {middle : Except MessagingError α → Ground κ → Prop}
    (h : first.Keeps shift.reasoning middle ground)
    (hrest : ∀ value after, middle (.ok value) after → Reasons shift (f value) after) :
    Reasons shift (first >>= f) ground :=
  TickStep.Keeps.andThen (h.mono fun _ after hmiddle =>
    ⟨fun value hvalue => hrest value after (hvalue ▸ hmiddle), fun _ _ => trivial⟩)

theorem Reasons.lifting {program : Program κ α} {f : α → TickStep κ β} {middle : α → Ground κ → Prop}
    (h : program.Keeps shift.reasoning middle ground)
    (hrest : ∀ value after, middle value after → Reasons shift (f value) after) :
    Reasons shift ((liftM program : TickStep κ α) >>= f) ground := by
  refine TickStep.Keeps.andThen (TickStep.Keeps.lift (h.mono fun value after hmiddle => ?_))
  refine ⟨fun given hgiven => ?_, nofun⟩
  cases hgiven
  exact hrest value after hmiddle

/-- Only changes need grounds. -/
theorem reasoning_aside {call : Call κ} (h : call.isSwap = false) :
    shift.reasoning.allows ground call := by
  intro change hcall
  rw [hcall] at h
  cases h

/-- A change that gives no row up needs none. -/
theorem reasoning_live (hlive : change.deadLettered = false) :
    shift.reasoning.allows ground (.swap change) := by
  intro other hother hdead
  cases hother
  rw [hlive] at hdead
  cases hdead

theorem reasoning_grounds (hseen : row ∈ ground.seen) (hfits : change.fits row = true)
    (h : change.deadLettered = true → shift.Grounds ground row change) :
    shift.reasoning.allows ground (.swap change) := by
  intro other hother hdead
  cases hother
  exact ⟨row, hseen, hfits, h hdead⟩

theorem reasons_record {sample : Sample} {f : TickReport → TickReport} :
    (TickStep.record sample f : TickStep κ Unit).Keeps shift.reasoning
      (fun _ after => after = ground) ground := by
  refine TickStep.Keeps.andThen (TickStep.Keeps.modify ⟨fun _ _ => ?_, nofun⟩)
  exact TickStep.Keeps.lift ⟨reasoning_aside rfl, fun _ _ => rfl⟩

theorem reasons_report {sample : Sample} {f : TickReport → TickReport} :
    Reasons shift (TickStep.record sample f : TickStep κ Unit) ground :=
  reasons_record.mono fun _ _ _ => trivial

structure Won (change : Change) (won : Row) (after : Ground κ) : Prop where
  status : won.status = change.status
  dead : won.deadLettered = change.deadLettered
  seen : won ∈ after.seen
  claim : won.status = .processing → after.claim = some won
  heard : after.heard = none

theorem reasons_swap (hallows : shift.reasoning.allows ground (.swap change)) :
    Program.Keeps shift.reasoning
      (fun outcome after => ∀ won, outcome = .ok (some won) → Won change won after)
      (Custodian.swap change : Attempt κ MessagingError (Option Row)) ground := by
  refine Program.Keeps.calling ⟨hallows, fun answer hlikely won hwon => ?_⟩
  match answer with
  | .error error => cases hwon
  | .ok none => cases hwon
  | .ok (some found) =>
      cases hwon
      obtain ⟨old, _, rfl⟩ := hlikely
      refine ⟨rfl, rfl, List.mem_cons_self, fun hstatus => ?_, rfl⟩
      simp [Shift.reasoning, Ground.next, Call.isSwap, Call.shown, hstatus]

/-- What follows a change that may have been lost. -/
theorem reasons_changed {attempt : Attempt κ MessagingError (Option Row)} {rest : Row → TickStep κ Unit}
    (h : Program.Keeps shift.reasoning
      (fun outcome after => ∀ won, outcome = .ok (some won) → Won change won after) attempt ground)
    (hrest : ∀ won after, Won change won after → Reasons shift (rest won) after) :
    Reasons shift (TickStep.of attempt >>= fun
      | none => lostClaim
      | some won => rest won) ground := by
  refine Reasons.andThen (TickStep.Keeps.of h) fun value after hwon => ?_
  cases value with
  | none => exact reasons_report
  | some won => exact hrest won after (hwon won rfl)

theorem reasons_apply (hallows : shift.reasoning.allows ground (.swap change)) :
    Program.Keeps shift.reasoning (fun _ _ => True)
      (Custodian.apply change : Attempt κ MessagingError Row) ground := by
  refine Program.Keeps.andThen ((reasons_swap hallows).mono fun outcome after _ => ⟨fun value _ => ?_,
    fun _ _ => trivial⟩)
  cases value with
  | some won => trivial
  | none => trivial

theorem reasons_settled {outcome : Attempt κ MessagingError Row} {f : Option Row → TickStep κ Unit}
    (h : Program.Keeps shift.reasoning (fun _ _ => True) outcome ground)
    (hrest : ∀ settled after, Reasons shift (f settled) after) :
    Reasons shift (settle outcome >>= f) ground := by
  have hlift : Reasons shift (liftM (outcome.run : Program κ (Except MessagingError Row)) :
      TickStep κ _) ground := TickStep.Keeps.lift h
  have hsettle : Reasons shift (settle outcome) ground := by
    refine Reasons.andThen hlift fun result after _ => ?_
    split
    · exact fun _ => trivial
    · exact Reasons.andThen reasons_report fun _ _ _ _ => trivial
    · exact fun _ => trivial
  exact Reasons.andThen hsettle fun settled after _ => hrest settled after

/-- A claim is settled at some time of the clock. -/
theorem reasons_settlement {custodian : Custodian} {next : Status} {change : Instant → Change}
    (hallows : claimed.refusal? next custodian.maxRetries = none → ∀ clock,
      shift.reasoning.allows ground (.swap (change clock))) :
    Program.Keeps shift.reasoning (fun _ _ => True)
      (do
        Attempt.ofExcept (custodian.check claimed next)
        let clock ← (Program.now κ : Program κ Instant)
        Custodian.apply (change clock) : Attempt κ MessagingError Row) ground := by
  refine Custodian.keeps_checked (fun hlook => ?_) fun _ => trivial
  exact Program.Keeps.lifting ⟨reasoning_aside rfl, fun clock _ => reasons_apply (hallows hlook clock)⟩

theorem reasons_giveUp {reason : String} (hseen : claimed ∈ ground.seen)
    (h : ∀ clock, shift.Grounds ground claimed (Custodian.malformedChange claimed reason clock)) :
    Reasons shift (shift.publisher.giveUp claimed reason) ground := by
  refine reasons_settled (reasons_settlement fun _ clock => ?_) fun settled after => ?_
  · exact reasoning_grounds hseen (Change.fits_of claimed) fun _ => h clock
  · cases settled with
    | some row => exact reasons_report
    | none => exact fun _ => trivial

theorem reasons_settleDelivered :
    Reasons shift (shift.publisher.settleDelivered claimed) ground := by
  refine reasons_settled (reasons_settlement fun hlook clock => ?_) fun settled after => ?_
  · exact reasoning_live (Row.refusal?_eq_none_iff.1 hlook).2.1
  · cases settled with
    | some row => exact reasons_report
    | none => exact fun _ => trivial

theorem reasons_settleFailed {reason : String} (hseen : claimed ∈ ground.seen) :
    Reasons shift (shift.publisher.settleFailed claimed reason shift.now) ground := by
  refine reasons_settled (reasons_settlement fun _ clock => ?_) fun settled after => ?_
  · exact reasoning_grounds hseen (Change.fits_of claimed) fun hdead =>
      .exhausted (of_decide_eq_true hdead)
  · cases settled with
    | some row =>
        dsimp only
        split
        · exact reasons_report
        · exact reasons_report
    | none => exact fun _ => trivial

/-- What a worker hears of a delivery is what the delivery comes to. -/
theorem reasons_router (envelope : RawEnvelope) (hseen : claimed ∈ ground.seen)
    (hheard : ground.heard = none) :
    (shift.publisher.router.deliver claimed envelope).Keeps shift.reasoning
      (fun outcome after => (after.claim = ground.claim ∧ claimed ∈ after.seen) ∧
        shift.publisher.router.Delivers claimed envelope after.heard.toList outcome) ground := by
  by_cases hdelivery : claimed.delivery = .outbox
  · rw [shift.publisher.router.deliver_outbox claimed envelope hdelivery]
    exact ⟨reasoning_aside rfl, fun answer _ => ⟨⟨rfl, hseen⟩, .outgoing hdelivery answer⟩⟩
  · rw [shift.publisher.router.deliver_inside claimed envelope hdelivery]
    rcases shift.publisher.router.registry.schedule_cases envelope with
      ⟨error, hcommand, hschedule⟩ | ⟨command, hcommand, hschedule⟩
    · rw [hschedule]
      refine ⟨⟨rfl, hseen⟩, ?_⟩
      rw [hheard]
      exact .nobody hdelivery hcommand
    · rw [hschedule]
      exact ⟨reasoning_aside rfl, fun answer _ => ⟨⟨rfl, hseen⟩, .inside hdelivery hcommand answer⟩⟩

theorem reasons_deliver (hclaim : ground.claim = some claimed) (hseen : claimed ∈ ground.seen)
    (hheard : ground.heard = none) :
    Reasons shift (shift.publisher.deliver claimed shift.now) ground := by
  have hmodify : ∀ {f : TickReport → TickReport},
      TickStep.Keeps shift.reasoning (fun _ after => after = ground) (modify f : TickStep κ PUnit) ground :=
    TickStep.Keeps.modify rfl
  refine Reasons.andThen hmodify fun _ after hafter => ?_
  rw [hafter]
  cases hdecode : shift.publisher.router.decode claimed with
  | error error => exact reasons_giveUp hseen fun _ => .unreadable hclaim hdecode
  | ok envelope =>
      refine Reasons.lifting (reasons_router envelope hseen hheard) ?_
      rintro outcome last ⟨⟨hsame, hstill⟩, hdelivers⟩
      cases outcome with
      | ok _ => exact reasons_settleDelivered
      | error error =>
          dsimp only
          split
          · exact reasons_settleFailed hstill
          · rename_i hpermanent
            exact reasons_giveUp hstill fun _ => .refused (hsame.trans hclaim) hdecode hdelivers
              (Bool.eq_false_iff.2 hpermanent)

theorem reasons_takeUp :
    Reasons shift (shift.publisher.takeUp row shift.now) ground := by
  have hclaim : Program.Keeps shift.reasoning
      (fun outcome after => ∀ won, outcome = .ok (some won) →
        Won (shift.publisher.custodian.claimChange row shift.now) won after)
      (shift.publisher.custodian.claimAt row shift.now) ground := by
    refine Custodian.keeps_checked (fun hlook => ?_) fun _ _ hwon => nomatch hwon
    exact reasons_swap (reasoning_live (Row.refusal?_eq_none_iff.1 hlook).2.1)
  exact reasons_changed hclaim fun claimed after hwon =>
    reasons_deliver (hwon.claim hwon.status) hwon.seen hwon.heard

theorem reasons_takeOver (hseen : row ∈ ground.seen) :
    Reasons shift (shift.publisher.takeOver row shift.now) ground := by
  by_cases hlook : Custodian.hasExpired row shift.now = true
  · obtain ⟨hlive, hheld, _⟩ := Custodian.hasExpired_iff.1 hlook
    have hreclaim : shift.publisher.custodian.reclaim row shift.now =
        (Custodian.swap (shift.publisher.custodian.reclaimChange row shift.now) :
          Attempt κ MessagingError (Option Row)) := if_pos hlook
    unfold takeOver
    rw [hreclaim]
    rcases shift.publisher.custodian.reclaimChange_cases row shift.now with ⟨hle, heq⟩ | ⟨_, heq⟩
    · rw [heq]
      refine reasons_changed (reasons_swap (reasoning_grounds hseen (Change.fits_of row)
        fun _ => .exhausted hle)) fun given after hwon => ?_
      rw [if_pos (hwon.dead.trans (decide_eq_true hle))]
      exact reasons_report
    · rw [heq]
      refine reasons_changed (reasons_swap (reasoning_live hlive)) fun claimed after hwon => ?_
      rw [if_neg (by simp [hwon.dead.trans hlive])]
      refine Reasons.andThen reasons_record fun _ last hlast => ?_
      rw [hlast]
      exact reasons_deliver (hwon.claim (hwon.status.trans hheld)) hwon.seen hwon.heard
  · unfold takeOver Custodian.reclaim
    rw [if_neg hlook]
    exact fun _ => trivial

theorem reasons_postpone (hseen : row ∈ ground.seen) {cause : MessageId}
    (hcause : row.causationId = some cause) (hwaits : ground.waits = some cause) :
    Reasons shift (shift.publisher.postpone row shift.now) ground := by
  have hdefer : Program.Keeps shift.reasoning
      (fun outcome after => ∀ won, outcome = .ok (some won) →
        Won (shift.publisher.custodian.deferChange row
          (shift.publisher.nextAttemptAt shift.now (Count.next row.deferrals))) won after)
      (shift.publisher.custodian.defer row
        (shift.publisher.nextAttemptAt shift.now (Count.next row.deferrals))) ground := by
    unfold Custodian.defer
    split
    · rename_i hlook
      refine reasons_swap (reasoning_grounds hseen (Custodian.fits_deferChange ..) fun hdead => ?_)
      rcases shift.publisher.custodian.deferChange_cases row
        (shift.publisher.nextAttemptAt shift.now (Count.next row.deferrals)) with ⟨hle, heq⟩ | ⟨_, heq⟩
      · rw [heq]
        exact .waited hle hcause hwaits
      · rw [heq] at hdead
        exact absurd ((Custodian.mayDefer_iff.1 hlook).1.symm.trans hdead) Bool.false_ne_true
    · exact fun _ hwon => nomatch hwon
  refine reasons_changed hdefer fun changed after _ => ?_
  split
  · exact reasons_report
  · exact reasons_report

theorem reasons_causeResolved (cause : MessageId) :
    Program.Keeps shift.reasoning
      (fun outcome after => ground.seen ⊆ after.seen ∧
        (outcome = .ok false → after.waits = some cause))
      (Custodian.causeResolved cause : Attempt κ MessagingError Bool) ground := by
  refine Program.Keeps.andThen (Program.Keeps.calling ⟨reasoning_aside rfl, fun answer _ => ?_⟩)
  match answer with
  | .error error => exact Program.Keeps.failed ⟨fun _ hrow => hrow, nofun⟩
  | .ok statuses =>
      refine Program.Keeps.succeeded ⟨fun _ hrow => hrow, fun hwaits => ?_⟩
      have hopen : statuses.all (· == .processed) = false := Except.ok.inj hwaits
      simp [Shift.reasoning, Ground.next, Call.unresolved?, hopen]

theorem reasons_process (hseen : row ∈ ground.seen) :
    Reasons shift (shift.publisher.process row shift.now) ground := by
  unfold process
  split
  · exact reasons_takeOver hseen
  · split
    · exact reasons_takeUp
    · rename_i cause hcause
      refine Reasons.andThen (TickStep.Keeps.of (reasons_causeResolved cause)) ?_
      rintro resolved after ⟨hstill, hwaits⟩
      cases resolved with
      | true => exact reasons_takeUp
      | false => exact reasons_postpone (hstill hseen) hcause (hwaits rfl)

theorem reasons_processAll (rows : List Row) (report : TickReport)
    (hseen : ∀ row ∈ rows, row ∈ ground.seen) :
    (shift.publisher.processAll shift.now rows report).Keeps shift.reasoning (fun _ _ => True)
      ground := by
  induction rows generalizing report ground with
  | nil => trivial
  | cons row rest ih =>
      obtain ⟨hrow, hrest⟩ := List.forall_mem_cons.1 hseen
      refine Program.Keeps.bind ((reasons_process hrow report).seeing.mono ?_)
      rintro ⟨outcome, last⟩ after ⟨_, hstill⟩
      have hthere : ∀ row ∈ rest, row ∈ after.seen := fun row hmem => hstill (hrest row hmem)
      cases outcome with
      | ok value => exact ih last hthere
      | error error => exact ⟨reasoning_aside rfl, fun _ _ => ih _ hthere⟩

/-- A tick gives up no row without grounds. -/
theorem reasons_tick (shift : Shift κ) :
    Program.Keeps shift.reasoning (fun _ _ => True) (shift.publisher.tickAt shift.now)
      Ground.start := by
  refine Program.Keeps.andThen (Program.Keeps.calling (Program.Keeps.calling
    ⟨reasoning_aside rfl, fun answer _ => ?_⟩))
  match answer with
  | .error error => exact Program.Keeps.failed trivial
  | .ok rows =>
      have hseen : ∀ row ∈ rows, row ∈ (Ground.start.next (.due shift.query : Call κ) (.ok rows)).seen :=
        fun row hrow => List.mem_append_left _ hrow
      refine Program.Keeps.succeeded (Program.Keeps.lifting
        ((reasons_processAll rows _ hseen).mono fun report after _ => ?_))
      exact Program.Keeps.lifting ⟨reasoning_aside rfl, fun _ _ => trivial⟩

end steps

end Publisher

section history

variable {number : Nat} {history : List (Moment κ τ)}

theorem Ground.claim_after : (Ground.after number history).claim = held number history := by
  induction history with
  | nil => rfl
  | cons moment past ih =>
      cases hby : moment.isBy number with
      | true =>
          rw [after_cons_by hby, held, hby, Bool.true_and, next, ih]
          rfl
      | false => simp [hby, ih]

theorem Ground.seen_after {row : Row} (h : row ∈ (Ground.after number history).seen) :
    row ∈ history.flatMap Moment.shown := by
  induction history with
  | nil => cases h
  | cons moment past ih =>
      rw [List.flatMap_cons, List.mem_append]
      simp only [after] at h
      split at h
      · exact (List.mem_append.1 h).imp id ih
      · exact Or.inr (ih h)

theorem Ground.waits_after {id : MessageId} (h : (Ground.after number history).waits = some id) :
    ∃ moment ∈ history, moment.isBy number = true ∧
      moment.call.unresolved? moment.answer = some id := by
  induction history with
  | nil => cases h
  | cons moment past ih =>
      have hpast : (Ground.after number past).waits = some id →
          ∃ made ∈ moment :: past, made.isBy number = true ∧
            made.call.unresolved? made.answer = some id := fun hold => by
        obtain ⟨made, hmade, hfound⟩ := ih hold
        exact ⟨made, List.mem_cons_of_mem _ hmade, hfound⟩
      simp only [after] at h
      split at h
      · rename_i hby
        cases hfound : moment.call.unresolved? moment.answer with
        | some found =>
            simp only [next, hfound, Option.some_or] at h
            exact ⟨moment, List.mem_cons_self, hby, hfound.trans h⟩
        | none =>
            simp only [next, hfound, Option.none_or] at h
            exact hpast h
      · exact hpast h

/-- A job has handed over the claim that it holds, and was answered. -/
def AnsweredIn (number : Nat) (history : List (Moment κ τ)) (claimed : Row) (one : HandOver κ) : Prop :=
  ∃ later moment past, history = later ++ moment :: past ∧ moment.isBy number = true ∧
    held number past = some claimed ∧ moment.call.handOver? moment.answer = some one

/-- What a worker has heard since its last change was about the claim that it holds. -/
theorem Ground.heard_after {claimed : Row} {one : HandOver κ}
    (h : (Ground.after number history).heard = some one) (hheld : held number history = some claimed) :
    AnsweredIn number history claimed one := by
  induction history with
  | nil => cases h
  | cons moment past ih =>
      have hpast : (Ground.after number past).heard = some one → held number past = some claimed →
          AnsweredIn number (moment :: past) claimed one := fun hold hstill => by
        obtain ⟨later, made, earlier, rfl, hmade⟩ := ih hold hstill
        exact ⟨moment :: later, made, earlier, rfl, hmade⟩
      cases hby : moment.isBy number with
      | true =>
          rw [after_cons_by hby] at h
          cases hswap : moment.call.isSwap with
          | true => simp [next, hswap] at h
          | false =>
              rw [heard_next hswap] at h
              rw [held_cons_other (by rw [hswap, Bool.and_false])] at hheld
              cases hover : moment.call.handOver? moment.answer with
              | some heard =>
                  rw [hover, Option.some_or] at h
                  exact ⟨[], moment, past, rfl, hby, hheld, hover.trans h⟩
              | none =>
                  rw [hover, Option.none_or] at h
                  exact hpast h hheld
      | false =>
          rw [after_cons_other hby] at h
          rw [held_cons_other (by rw [hby, Bool.false_and])] at hheld
          exact hpast h hheld

/-- Why a tick gives a row up, by what has happened until then. -/
inductive Shift.Reason (shift : Shift κ) (number : Nat) (past : List (Moment κ τ)) (row : Row) :
    Prop where
  | exhausted (hceiling : shift.publisher.settings.maxRetries ≤ row.retries)
  | waited (hceiling : shift.publisher.settings.maxRetries ≤ row.deferrals) {cause : MessageId}
      (hcause : row.causationId = some cause) {moment : Moment κ τ} (hmoment : moment ∈ past)
      (hby : moment.isBy number = true)
      (hunresolved : moment.call.unresolved? moment.answer = some cause)
  | unreadable {claimed : Row} {error : MessagingError} (hheld : held number past = some claimed)
      (hid : claimed.id = row.id) (hdecode : shift.publisher.router.decode claimed = .error error)
  | refused {claimed : Row} {envelope : RawEnvelope} {handed : List (HandOver κ)} {error : BusError}
      (hheld : held number past = some claimed) (hid : claimed.id = row.id)
      (hdecode : shift.publisher.router.decode claimed = .ok envelope)
      (hdelivers : shift.publisher.router.Delivers claimed envelope handed (.error error))
      (hpermanent : error.isRetryable = false)
      (hheard : ∀ one ∈ handed, AnsweredIn number past claimed one)

theorem Shift.Grounds.reason {shift : Shift κ} {row : Row} {change : Change}
    (h : shift.Grounds (Ground.after number history) row change) :
    shift.Reason number history (row.apply change) := by
  cases h with
  | exhausted hceiling => exact .exhausted hceiling
  | waited hceiling hcause hwaits =>
      obtain ⟨moment, hmoment, hby, hunresolved⟩ := Ground.waits_after hwaits
      exact .waited hceiling hcause hmoment hby hunresolved
  | unreadable hclaim hdecode => exact .unreadable (Ground.claim_after.symm.trans hclaim) rfl hdecode
  | refused hclaim hdecode hdelivers hpermanent =>
      have hheld := Ground.claim_after.symm.trans hclaim
      exact .refused hheld rfl hdecode hdelivers hpermanent fun one hone =>
        Ground.heard_after (Option.mem_toList.1 hone) hheld

inductive GivenUp (shift? : τ → Option (Shift κ))
    (reason : Shift κ → Nat → List (Moment κ τ) → Row → Prop) (history : List (Moment κ τ))
    (row : Row) : Prop where
  | intro {later past : List (Moment κ τ)} {moment : Moment κ τ} {worker : Worker τ} {shift : Shift κ}
      {change : Change} (hhistory : history = later ++ moment :: past)
      (hworker : moment.worker = some worker) (hshift : shift? worker.task = some shift)
      (hcall : moment.call = .swap change) (hid : change.id = row.id)
      (hdead : change.deadLettered = true) (hreason : reason shift worker.number past row)

theorem GivenUp.mono {shift? : τ → Option (Shift κ)} {row : Row}
    {reason other : Shift κ → Nat → List (Moment κ τ) → Row → Prop}
    (h : GivenUp shift? reason history row)
    (hweaker : ∀ shift number past, past ⊆ history → reason shift number past row →
      other shift number past row) : GivenUp shift? other history row := by
  cases h with
  | @intro later past moment worker shift _ hhistory hworker hshift hcall hid hdead hreason =>
      refine .intro hhistory hworker hshift hcall hid hdead (hweaker shift _ past ?_ hreason)
      rw [hhistory]
      exact fun _ hmem => List.mem_append_right _ (List.mem_cons_of_mem _ hmem)

end history

def Shift.reasoningOf : Option (Shift κ) → Protocol κ (Ground κ)
  | some shift => shift.reasoning
  | none => ⟨fun _ _ => True, Ground.next⟩

theorem phase_eq_after (shift? : τ → Option (Shift κ)) (world : World κ τ ρ) (worker : Worker τ) :
    world.phase (fun task => Shift.reasoningOf (shift? task)) (fun _ => Ground.start) worker =
      Ground.after worker.number world.history := by
  have hnext : (Shift.reasoningOf (shift? worker.task)).next = Ground.next := by
    cases shift? worker.task <;> rfl
  unfold World.phase
  induction world.history with
  | nil => rfl
  | cons moment past ih => simp only [Protocol.phase, Ground.after, ih, hnext]

/-- What fits a change as it was seen, and what fits it now, is one row. -/
theorem World.Sound.eq_of_both_fit {world : World κ τ ρ} (h : world.Sound) {seen row : Row}
    {change : Change} (hseen : seen ∈ world.handedOut) (hrow : row ∈ world.store.rows)
    (hexpected : change.fits seen = true) (hfits : change.fits row = true) : seen = row := by
  have hid := (Change.id_of_fits hfits).trans (Change.id_of_fits hexpected).symm
  have hcurrent := h.current seen hseen row (List.mem_append_left _ hrow) hid
  exact hcurrent.2 ((Change.fits_iff.1 hexpected).2.1.trans (Change.fits_iff.1 hfits).2.1.symm)

/-- Where nothing but ticks changes rows, whatever is a dead letter was given up by a tick for a
reason. -/
theorem Rules.Publishes.given_up {rules : Rules κ τ ρ} {shift? : τ → Option (Shift κ)}
    (h : rules.Publishes shift?)
    (hreasons : rules.Follows (fun task => Shift.reasoningOf (shift? task)) fun _ => Ground.start)
    (actions : List (Action κ τ)) :
    ∀ row ∈ (rules.world actions).store.rows, row.deadLettered = true →
      GivenUp shift? Shift.Reason (rules.world actions).history row := by
  refine (World.rows_hold h.lasting (fun history row => row.deadLettered = true →
    GivenUp shift? Shift.Reason history row) (fun _ _ _ _ => nofun) ?_ ?_ actions).1
  · intro moment past row hold hdead
    cases hold hdead with
    | @intro later _ _ _ _ _ hhistory hworker hshift hcall hid hgiven hreason =>
        have hlonger : moment :: past = (moment :: later) ++ _ := congrArg (moment :: ·) hhistory
        exact .intro hlonger hworker hshift hcall hid hgiven hreason
  · intro earlier moment change row hmakes hcall hrow hfits _ hdead
    obtain ⟨worker, shift, hworker, hshift, _⟩ := h.allows hmakes (Or.inl (by rw [hcall]; rfl))
    have hallows := hmakes.allows hreasons hworker
    rw [phase_eq_after] at hallows
    simp only [hshift, Shift.reasoningOf] at hallows
    obtain ⟨seen, hseen, hexpected, hgrounds⟩ := hallows change hcall hdead
    obtain rfl := (World.sound _ earlier).eq_of_both_fit (Ground.seen_after hseen) hrow hexpected hfits
    have hhistory : moment :: (rules.world earlier).history =
        [] ++ moment :: (rules.world earlier).history := rfl
    exact .intro hhistory hworker hshift hcall (Change.id_of_fits hfits).symm hdead hgrounds.reason

end Courier
