import Courier.Proofs.Publishing.Ticks
/-
What a tick reports.  Every change of a row that takes place, but for a claim, is one deed; and
whatever a tick is answered, it counts each of its deeds once and nothing else.
-/
namespace Courier

variable {κ α β : Type}

/-- What a change of a row comes to in a report. -/
inductive Deed where
  | processed
  | retried
  | deadLettered
  | deferred
  | reclaimed
deriving DecidableEq

namespace TickReport

def count (report : TickReport) : Deed → Nat
  | .processed => report.processed
  | .retried => report.retried
  | .deadLettered => report.deadLettered
  | .deferred => report.deferred
  | .reclaimed => report.reclaimed

def Tells (report : TickReport) (deeds : List Deed) : Prop :=
  ∀ deed, report.count deed = deeds.count deed

theorem Tells.add {report more : TickReport} {deeds done : List Deed} (h : report.Tells deeds)
    (hmore : ∀ deed, more.count deed = report.count deed + done.count deed) :
    more.Tells (done ++ deeds) := by
  intro deed
  rw [hmore, h, List.count_append, Nat.add_comm]

end TickReport

/-- The deed that a change is.  A claim is none; what becomes of it will be. -/
def Change.deed? (change : Change) : Option Deed :=
  if change.deadLettered then some .deadLettered
  else
    match change.status with
    | .processed => some .processed
    | .processing => if change.expectedStatus = .processing then some .reclaimed else none
    | .failed => if change.expectedStatus = .processing then some .retried else some .deferred
    | .stored => some .deferred

def Call.deed? : (call : Call κ) → call.Answer → Option Deed
  | .swap change, Except.ok (some _) => change.deed?
  | _, _ => none

namespace Deed

def tally : Protocol κ (List Deed) where
  allows _ _ := True
  next deeds call answer := (call.deed? answer).toList ++ deeds

end Deed

/-- An attempt that reports nothing itself.  When it succeeds, the deeds that it has done fit its value;
when it fails, there are none. -/
def Attempt.Does {ε : Type} (fits : α → List Deed → Prop) (attempt : Attempt κ ε α) : Prop :=
  ∀ deeds, Program.Keeps Deed.tally
    (fun outcome after =>
      match outcome with
      | .ok value => ∃ done, after = done ++ deeds ∧ fits value done
      | .error _ => after = deeds)
    attempt deeds

/-- What a custodian has done to a row that it was asked to change, unless the claim was lost. -/
def DoneTo (deed : Row → Deed) : Option Row → List Deed → Prop
  | some row, done => done = [deed row]
  | none, done => done = []

/-- The deed, unless the row has become a dead letter by it. -/
def Deed.unlessDead (deed : Deed) (row : Row) : Deed :=
  if row.deadLettered then .deadLettered else deed

namespace Custodian

variable {custodian : Custodian} {row : Row}

theorem deed?_claim (hlook : row.refusal? .processing custodian.maxRetries = none) (now : Instant) :
    (custodian.claimChange row now).deed? = none := by
  obtain ⟨hedge, hlive, _⟩ := Row.refusal?_eq_none_iff.1 hlook
  have hfree : row.status ≠ .processing := by
    intro hheld
    rw [hheld] at hedge
    cases hedge
  simp [Change.deed?, claimChange, Change.of, hlive, hfree]

theorem deed?_processed (hlook : row.refusal? .processed custodian.maxRetries = none)
    (now : Instant) : (processedChange row now).deed? = some .processed := by
  obtain ⟨_, hlive, _⟩ := Row.refusal?_eq_none_iff.1 hlook
  simp [Change.deed?, processedChange, Change.of, hlive]

theorem deed?_failure (hlook : row.refusal? .failed custodian.maxRetries = none)
    (reason : Option String) (now next : Instant) :
    { custodian.failureChange row reason now with nextAttemptAt := next : Change }.deed? =
      some (if custodian.maxRetries ≤ Count.next row.retries then .deadLettered else .retried) := by
  obtain ⟨hedge, _, _⟩ := Row.refusal?_eq_none_iff.1 hlook
  have hheld := Lawful.status_of_leaves hedge (by decide)
  by_cases hceiling : custodian.maxRetries ≤ Count.next row.retries
  · simp [Change.deed?, failureChange, hceiling]
  · simp [Change.deed?, failureChange, Change.of, hceiling, hheld]

theorem deed?_reclaim {now : Instant} (hlook : hasExpired row now = true) :
    (custodian.reclaimChange row now).deed? =
      some (if custodian.maxRetries ≤ Count.next row.retries then .deadLettered else .reclaimed) := by
  obtain ⟨hlive, hheld, _⟩ := hasExpired_iff.1 hlook
  by_cases hceiling : custodian.maxRetries ≤ Count.next row.retries
  · simp [Change.deed?, reclaimChange, failureChange, hceiling]
  · simp [Change.deed?, reclaimChange, Change.of, hceiling, hlive, hheld]

theorem deed?_defer (hlook : mayDefer row = true) (next : Instant) :
    (custodian.deferChange row next).deed? =
      some (if custodian.maxRetries ≤ Count.next row.deferrals then .deadLettered else .deferred) := by
  obtain ⟨hlive, hfree⟩ := mayDefer_iff.1 hlook
  by_cases hceiling : custodian.maxRetries ≤ Count.next row.deferrals
  · simp [Change.deed?, deferChange, hceiling]
  · rcases hfree with hfree | hfree
    · simp [Change.deed?, deferChange, Change.of, hceiling, hlive, hfree]
    · simp [Change.deed?, deferChange, Change.of, hceiling, hlive, hfree]

/-- A change that may be made is the deed that its row will show. -/
theorem does_swap {change : Change} {fits : Option Row → List Deed → Prop}
    (hnone : fits none [])
    (hsome : ∀ row, row.deadLettered = change.deadLettered → fits (some row) change.deed?.toList) :
    (swap change : Attempt κ MessagingError (Option Row)).Does fits := by
  intro deeds
  refine Program.Keeps.calling ⟨trivial, fun answer hplausible => ?_⟩
  match answer with
  | .error error => exact rfl
  | .ok none => exact ⟨[], rfl, hnone⟩
  | .ok (some row) =>
      obtain ⟨old, _, rfl⟩ := hplausible
      exact ⟨_, rfl, hsome _ rfl⟩

theorem does_apply {change : Change} {fits : Row → List Deed → Prop}
    (hfits : ∀ row, row.deadLettered = change.deadLettered → fits row change.deed?.toList) :
    (apply change : Attempt κ MessagingError Row).Does fits := by
  intro deeds
  have hswap : (swap change : Attempt κ MessagingError (Option Row)).Does fun answer done =>
      answer.elim (done = []) fun row => fits row done := does_swap rfl hfits
  refine Program.Keeps.andThen ((hswap deeds).mono fun outcome after hdone => ?_)
  match outcome with
  | .error error => exact Program.Keeps.failed hdone
  | .ok none =>
      obtain ⟨done, rfl, rfl⟩ := hdone
      exact Program.Keeps.succeeded rfl
  | .ok (some row) => exact Program.Keeps.succeeded hdone

/-- What follows a check may rely on it. -/
theorem does_checked {next : Status} {fits : α → List Deed → Prop}
    {rest : Unit → Attempt κ MessagingError α}
    (hrest : row.refusal? next custodian.maxRetries = none → (rest ()).Does fits) :
    Attempt.Does fits (Attempt.ofExcept (custodian.check row next) >>= rest) :=
  fun deeds => keeps_checked (fun hlook => hrest hlook deeds) fun _ => rfl

/-- The clock shows what it likes. -/
theorem does_now {fits : α → List Deed → Prop} {rest : Instant → Attempt κ MessagingError α}
    (hrest : ∀ now, (rest now).Does fits) :
    Attempt.Does fits ((liftM (Program.now κ) : Attempt κ MessagingError Instant) >>= rest) :=
  fun deeds => ⟨trivial, fun now _ => hrest now deeds⟩

theorem does_claimAt (now : Instant) :
    (custodian.claimAt row now : Attempt κ MessagingError (Option Row)).Does fun _ done =>
      done = [] := by
  refine does_checked fun hlook => does_swap rfl fun _ _ => ?_
  rw [deed?_claim hlook]
  rfl

theorem does_reclaim (now : Instant) :
    (custodian.reclaim row now : Attempt κ MessagingError (Option Row)).Does
      (DoneTo (.unlessDead .reclaimed)) := by
  unfold reclaim
  split
  · rename_i hlook
    refine does_swap rfl fun changed hdead => ?_
    obtain ⟨hlive, _, _⟩ := hasExpired_iff.1 hlook
    rw [deed?_reclaim hlook]
    by_cases hceiling : custodian.maxRetries ≤ Count.next row.retries
    · simp [DoneTo, Deed.unlessDead, hdead, reclaimChange, failureChange, hceiling]
    · simp [DoneTo, Deed.unlessDead, hdead, reclaimChange, Change.of, hceiling, hlive]
  · exact fun deeds => rfl

theorem does_defer (next : Instant) :
    (custodian.defer row next : Attempt κ MessagingError (Option Row)).Does
      (DoneTo (.unlessDead .deferred)) := by
  unfold defer
  split
  · rename_i hlook
    refine does_swap rfl fun changed hdead => ?_
    obtain ⟨hlive, _⟩ := mayDefer_iff.1 hlook
    rw [deed?_defer hlook]
    by_cases hceiling : custodian.maxRetries ≤ Count.next row.deferrals
    · simp [DoneTo, Deed.unlessDead, hdead, deferChange, hceiling]
    · simp [DoneTo, Deed.unlessDead, hdead, deferChange, Change.of, hceiling, hlive]
  · exact fun deeds => rfl

theorem does_markProcessed :
    (custodian.markProcessed row : Attempt κ MessagingError Row).Does fun _ done =>
      done = [.processed] := by
  refine does_checked fun hlook => does_now fun now => does_apply fun _ _ => ?_
  rw [deed?_processed hlook]
  rfl

theorem does_recordFailure (reason : String) (next : Instant) :
    (custodian.recordFailure row reason next : Attempt κ MessagingError Row).Does fun changed done =>
      done = [Deed.unlessDead .retried changed] := by
  refine does_checked fun hlook => does_now fun now => does_apply fun changed hdead => ?_
  rw [deed?_failure hlook]
  simp [Deed.unlessDead, hdead, failureChange]

theorem does_markMalformed (reason : String) :
    (custodian.markMalformed row reason : Attempt κ MessagingError Row).Does fun _ done =>
      done = [.deadLettered] :=
  does_checked fun _ => does_now fun _ => does_apply fun _ _ => rfl

theorem does_causeResolved (cause : MessageId) :
    (causeResolved cause : Attempt κ MessagingError Bool).Does fun _ done => done = [] := by
  intro deeds
  refine Program.Keeps.andThen (Program.Keeps.calling ⟨trivial, fun answer _ => ?_⟩)
  match answer with
  | .error error => exact Program.Keeps.failed rfl
  | .ok statuses => exact Program.Keeps.succeeded ⟨[], rfl, rfl⟩

end Custodian

/-- A step reports what it does, and before that what was done already and is not reported yet. -/
def TickStep.Tells (owed : List Deed) (step : TickStep κ α) : Prop :=
  ∀ report deeds, report.Tells deeds →
    (step.runFrom report).Keeps Deed.tally (fun result after => result.2.Tells after) (owed ++ deeds)

namespace TickStep.Tells

variable {owed : List Deed}

theorem pure (value : α) : TickStep.Tells [] (Pure.pure value : TickStep κ α) :=
  fun _ _ h => h

theorem modify {f : TickReport → TickReport}
    (hf : ∀ report deed, (f report).count deed = report.count deed + owed.count deed) :
    TickStep.Tells owed (modify f : TickStep κ PUnit) :=
  fun report _ h => h.add (hf report)

theorem andThen {first : TickStep κ α} {f : α → TickStep κ β} (h : first.Tells owed)
    (hrest : ∀ value, (f value).Tells []) : TickStep.Tells owed (first >>= f) := by
  intro report deeds htells
  refine Program.Keeps.bind ((h report deeds htells).mono fun result after hafter => ?_)
  obtain ⟨outcome, report⟩ := result
  cases outcome with
  | ok value => exact hrest value report after hafter
  | error error => exact hafter

/-- A program that changes no row has nothing to report. -/
theorem lift {program : Program κ α}
    (h : ∀ deeds, program.Keeps Deed.tally (fun _ after => after = deeds) deeds) :
    TickStep.Tells [] (liftM program : TickStep κ α) := by
  intro report deeds htells
  refine Program.Keeps.bind (Program.Keeps.bind ((h deeds).mono fun value after hafter => ?_))
  rw [hafter]
  exact htells

/-- What an attempt has done is left for the rest to report. -/
theorem of {fits : α → List Deed → Prop} {attempt : Attempt κ MessagingError α}
    {rest : α → TickStep κ β} (h : attempt.Does fits)
    (hrest : ∀ value done, fits value done → (rest value).Tells done) :
    TickStep.Tells [] (TickStep.of attempt >>= rest) := by
  intro report deeds htells
  refine Program.Keeps.bind (Program.Keeps.bind ((h deeds).mono fun outcome after hafter => ?_))
  cases outcome with
  | ok value =>
      obtain ⟨done, rfl, hfits⟩ := hafter
      exact hrest value done hfits report deeds htells
  | error error =>
      rw [hafter]
      exact htells

end TickStep.Tells

namespace Publisher

variable {publisher : Publisher κ} {row claimed : Row} {now : Instant} {owed : List Deed}

theorem tells_record {sample : Sample} {f : TickReport → TickReport}
    (hf : ∀ report deed, (f report).count deed = report.count deed + owed.count deed) :
    (TickStep.record sample f : TickStep κ Unit).Tells owed :=
  (TickStep.Tells.modify hf).andThen fun _ => .lift fun _ => ⟨trivial, fun _ _ => rfl⟩

theorem tells_lostClaim : (lostClaim : TickStep κ Unit).Tells [] :=
  tells_record fun report deed => by cases deed <;> rfl

theorem tells_becameDeadLetter :
    (becameDeadLetter row : TickStep κ Unit).Tells [.deadLettered] :=
  tells_record fun report deed => by cases deed <;> rfl

/-- A settled claim is left to be reported; a lost one is no deed. -/
theorem tells_settle {fits : Row → List Deed → Prop} {outcome : Attempt κ MessagingError Row}
    (h : outcome.Does fits) {report : TickReport} {deeds : List Deed} (htells : report.Tells deeds) :
    ((settle outcome).runFrom report).Keeps Deed.tally
      (fun result after =>
        match result with
        | (.ok (some settled), last) => last = report ∧ ∃ done, after = done ++ deeds ∧ fits settled done
        | (_, last) => last.Tells after)
      deeds := by
  refine Program.Keeps.bind (Program.Keeps.bind (Program.Keeps.bind
    ((h deeds).mono fun settled after hafter => ?_)))
  cases settled with
  | ok row => exact ⟨rfl, hafter⟩
  | error error =>
      rw [hafter]
      cases error with
      | claimConflict id =>
          refine Program.Keeps.bind ((tells_lostClaim report deeds htells).mono fun result last hlast => ?_)
          obtain ⟨outcome, after⟩ := result
          cases outcome with
          | ok value => exact hlast
          | error error => exact hlast
      | _ => exact htells

theorem tells_settled {fits : Row → List Deed → Prop} {outcome : Attempt κ MessagingError Row}
    {rest : Option Row → TickStep κ Unit} (h : outcome.Does fits)
    (hsome : ∀ settled done, fits settled done → (rest (some settled)).Tells done)
    (hnone : (rest none).Tells []) : (settle outcome >>= rest).Tells [] := by
  intro report deeds htells
  refine Program.Keeps.bind ((tells_settle h htells).mono fun result after hafter => ?_)
  obtain ⟨outcome, last⟩ := result
  match outcome with
  | .ok (some settled) =>
      obtain ⟨rfl, done, rfl, hfits⟩ := hafter
      exact hsome settled done hfits last deeds htells
  | .ok none => exact hnone last after hafter
  | .error error => exact hafter

theorem tells_giveUp (reason : String) : (publisher.giveUp claimed reason).Tells [] := by
  refine tells_settled (Custodian.does_markMalformed reason) (fun settled done hdone => ?_) (.pure ())
  rw [hdone]
  exact tells_becameDeadLetter

theorem tells_settleDelivered : (publisher.settleDelivered claimed).Tells [] := by
  refine tells_settled Custodian.does_markProcessed (fun settled done hdone => ?_) (.pure ())
  rw [hdone]
  exact tells_record fun report deed => by cases deed <;> rfl

theorem tells_settleFailed (reason : String) :
    (publisher.settleFailed claimed reason now).Tells [] := by
  refine tells_settled (Custodian.does_recordFailure reason _) (fun settled done hdone => ?_)
    (.pure ())
  rw [hdone, Deed.unlessDead]
  dsimp only
  split
  · exact tells_becameDeadLetter
  · exact tells_record fun report deed => by cases deed <;> rfl

/-- Handing a row over changes no row. -/
theorem tells_router (envelope : RawEnvelope) (deeds : List Deed) :
    (publisher.router.deliver row envelope).Keeps Deed.tally (fun _ after => after = deeds) deeds := by
  rcases publisher.router.deliver_cases row envelope with
    ⟨error, hdeliver⟩ | ⟨key, hdeliver⟩ | ⟨command, hdeliver⟩
  · rw [hdeliver]
    exact rfl
  · rw [hdeliver]
    exact ⟨trivial, fun _ _ => rfl⟩
  · rw [hdeliver]
    exact ⟨trivial, fun _ _ => rfl⟩

theorem tells_deliver : (publisher.deliver claimed now).Tells [] := by
  refine TickStep.Tells.andThen (TickStep.Tells.modify fun report deed => ?_) fun _ => ?_
  · cases deed <;> rfl
  · cases publisher.router.decode claimed with
    | error error => exact tells_giveUp error.message
    | ok envelope =>
        refine TickStep.Tells.andThen (.lift (tells_router envelope)) fun outcome => ?_
        cases outcome with
        | ok _ => exact tells_settleDelivered
        | error error =>
            dsimp only
            split
            · exact tells_settleFailed error.message
            · exact tells_giveUp error.message

theorem tells_postpone : (publisher.postpone row now).Tells [] := by
  refine TickStep.Tells.of (Custodian.does_defer _) fun answer done hdone => ?_
  match answer with
  | none =>
      rw [show done = [] from hdone]
      exact tells_lostClaim
  | some changed =>
      rw [show done = [Deed.unlessDead .deferred changed] from hdone, Deed.unlessDead]
      dsimp only
      split
      · exact tells_becameDeadLetter
      · exact tells_record fun report deed => by cases deed <;> rfl

theorem tells_takeOver : (publisher.takeOver row now).Tells [] := by
  refine TickStep.Tells.of (Custodian.does_reclaim now) fun answer done hdone => ?_
  match answer with
  | none =>
      rw [show done = [] from hdone]
      exact tells_lostClaim
  | some changed =>
      rw [show done = [Deed.unlessDead .reclaimed changed] from hdone, Deed.unlessDead]
      dsimp only
      split
      · exact tells_becameDeadLetter
      · refine TickStep.Tells.andThen (tells_record fun report deed => ?_) fun _ => tells_deliver
        cases deed <;> rfl

theorem tells_takeUp : (publisher.takeUp row now).Tells [] := by
  refine TickStep.Tells.of (Custodian.does_claimAt now) fun answer done hdone => ?_
  rw [hdone]
  cases answer with
  | none => exact tells_lostClaim
  | some changed => exact tells_deliver

theorem tells_process : (publisher.process row now).Tells [] := by
  unfold process
  split
  · exact tells_takeOver
  · split
    · exact tells_takeUp
    · refine TickStep.Tells.of (Custodian.does_causeResolved _) fun resolved done hdone => ?_
      rw [hdone]
      split
      · exact tells_takeUp
      · exact tells_postpone

theorem tells_processAll (rows : List Row) {report : TickReport} {deeds : List Deed}
    (h : report.Tells deeds) :
    (publisher.processAll now rows report).Keeps Deed.tally
      (fun report after => report.Tells after) deeds := by
  induction rows generalizing report deeds with
  | nil => exact h
  | cons row rest ih =>
      refine Program.Keeps.bind ((tells_process report deeds h).mono fun result after hafter => ?_)
      obtain ⟨outcome, report⟩ := result
      cases outcome with
      | ok value => exact ih hafter
      | error error => exact ⟨trivial, fun _ _ => ih hafter⟩

/-- The report of a tick counts what the tick has done; a tick that reports nothing has done nothing. -/
theorem tells_tick (publisher : Publisher κ) (now : Instant) :
    Program.Keeps Deed.tally
      (fun outcome after =>
        match outcome with
        | .ok report => report.Tells after
        | .error _ => after = [])
      (publisher.tickAt now : Attempt κ PublisherError TickReport) [] := by
  refine Program.Keeps.andThen (Program.Keeps.calling
    (Program.Keeps.calling ⟨trivial, fun answer _ => ?_⟩))
  match answer with
  | .error error => exact Program.Keeps.failed rfl
  | .ok rows =>
      have hnothing : ({ fetched := rows.length } : TickReport).Tells [] := fun deed => by
        cases deed <;> rfl
      refine Program.Keeps.succeeded (Program.Keeps.lifting
        ((tells_processAll rows hnothing).mono fun report after hafter => ?_))
      exact ⟨trivial, fun _ _ => hafter⟩

end Publisher

end Courier
