import Courier.Proofs.Publishing.Remainder
import Courier.Proofs.Publishing.Runs
/-
The accounts of a tick.  Whatever a tick is answered, each row of its batch ends in one outcome, and
its report counts the outcomes and keeps them apart.
-/
namespace Courier

variable {κ σ α : Type} {answer : (call : Call κ) → σ → call.Answer × σ}

inductive TurnOutcome where
  | processed
  | retried
  | deadLettered
  | deferred
  | claimLost
  | failed
deriving DecidableEq

namespace TickReport

def tally (report : TickReport) : TurnOutcome → Nat
  | .processed => report.processed
  | .retried => report.retried
  | .deadLettered => report.deadLettered
  | .deferred => report.deferred
  | .claimLost => report.lostClaims
  | .failed => report.errors

def add (report : TickReport) : TurnOutcome → TickReport
  | .processed => { report with processed := report.processed + 1 }
  | .retried => { report with retried := report.retried + 1 }
  | .deadLettered => { report with deadLettered := report.deadLettered + 1 }
  | .deferred => { report with deferred := report.deferred + 1 }
  | .claimLost => { report with lostClaims := report.lostClaims + 1 }
  | .failed => { report with errors := report.errors + 1 }

theorem tally_add (report : TickReport) (outcome other : TurnOutcome) :
    (report.add outcome).tally other = report.tally other + if other = outcome then 1 else 0 := by
  cases outcome <;> cases other <;> rfl

theorem add_claims (report : TickReport) (outcome : TurnOutcome) :
    (report.add outcome).fetched = report.fetched ∧ (report.add outcome).claimed = report.claimed ∧
      (report.add outcome).reclaimed = report.reclaimed := by
  cases outcome <;> exact ⟨rfl, rfl, rfl⟩

/-- In the turn of a row, with so many claims, no outcome has been reported yet. -/
structure Undecided (before : TickReport) (claims : Nat) (report : TickReport) : Prop where
  fetched : report.fetched = before.fetched
  tally : ∀ outcome, report.tally outcome = before.tally outcome
  claimed : report.claimed = before.claimed + claims
  reclaimed_ge : before.reclaimed ≤ report.reclaimed
  reclaimed_le : report.reclaimed ≤ before.reclaimed + claims

/-- The turn of a row is reported with one outcome, and with one claim at most.  No claim is taken
over that is not made, and nothing is delivered without one. -/
structure Decided (before : TickReport) (outcome : TurnOutcome) (after : TickReport) : Prop where
  fetched : after.fetched = before.fetched
  tally : ∀ other, after.tally other = before.tally other + if other = outcome then 1 else 0
  claimed_ge : before.claimed ≤ after.claimed
  claimed_le : after.claimed ≤ before.claimed + 1
  reclaimed : after.reclaimed + before.claimed ≤ before.reclaimed + after.claimed
  delivered : outcome = .processed ∨ outcome = .retried → after.claimed = before.claimed + 1

theorem Undecided.start (report : TickReport) : Undecided report 0 report :=
  ⟨rfl, fun _ => rfl, rfl, Nat.le_refl _, Nat.le_refl _⟩

theorem Undecided.add {before report : TickReport} {claims : Nat}
    (h : Undecided before claims report) {outcome : TurnOutcome} (hclaims : claims ≤ 1)
    (hdelivered : outcome = .processed ∨ outcome = .retried → claims = 1) :
    Decided before outcome (report.add outcome) := by
  obtain ⟨hfetched, hclaimed, hreclaimed⟩ := report.add_claims outcome
  have hmade := h.claimed
  constructor
  · rw [hfetched, h.fetched]
  · intro other
    rw [tally_add, h.tally]
  · omega
  · omega
  · have hle := h.reclaimed_le
    omega
  · intro hkind
    have hone := hdelivered hkind
    omega

end TickReport

/-- How a step of a row's turn ends: with an outcome, or in a failure that is reported by the tick. -/
def Accounted (before : TickReport) (result : Except MessagingError Unit) (report : TickReport) : Prop :=
  match result with
  | .ok _ => ∃ outcome, before.Decided outcome report
  | .error _ => before.Decided .failed (report.add .failed)

/-- In whatever state it starts, the step ends the turn. -/
def TickStep.Accounts (answer : (call : Call κ) → σ → call.Answer × σ) (before : TickReport)
    (step : TickStep κ Unit) (report : TickReport) : Prop :=
  ∀ state, step.Ends answer report state fun result last _ => Accounted before result last

namespace TickStep.Accounts

variable {before report : TickReport} {claims : Nat}

/-- A failure ends a turn at any point of it. -/
theorem failed (h : before.Undecided claims report) (hclaims : claims ≤ 1) (error : MessagingError) :
    Accounted before (.error error) report :=
  h.add hclaims nofun

theorem record (h : before.Undecided claims report) {sample : Sample} (outcome : TurnOutcome)
    (hclaims : claims ≤ 1) (hdelivered : outcome = .processed ∨ outcome = .retried → claims = 1) :
    (TickStep.record sample (·.add outcome) : TickStep κ Unit).Accounts answer before report :=
  fun _ => ⟨outcome, h.add hclaims hdelivered⟩

/-- An attempt reports nothing, and may fail. -/
theorem of (h : before.Undecided claims report) (hclaims : claims ≤ 1)
    {attempt : Attempt κ MessagingError α} {f : α → TickStep κ Unit}
    (hrest : ∀ value, (f value).Accounts answer before report) :
    (TickStep.of attempt >>= f).Accounts answer before report :=
  fun state => by
    have hattempt : Program.Ends answer attempt state fun _ _ => True := trivial
    exact Ends.of hattempt (fun value after _ => hrest value after) fun error _ _ =>
      failed h hclaims error

theorem lifting {program : Program κ α} {f : α → TickStep κ Unit}
    (hrest : ∀ value, (f value).Accounts answer before report) :
    ((liftM program : TickStep κ α) >>= f).Accounts answer before report :=
  fun _ => Ends.lifting (hrest _ _)

end TickStep.Accounts

namespace Publisher

variable {publisher : Publisher κ} {before report : TickReport} {row claimed : Row} {now : Instant}
  {claims : Nat}

theorem accounts_lostClaim (h : before.Undecided claims report) (hclaims : claims ≤ 1) :
    (lostClaim : TickStep κ Unit).Accounts answer before report :=
  .record h .claimLost hclaims nofun

theorem accounts_becameDeadLetter (h : before.Undecided claims report) (hclaims : claims ≤ 1) :
    (becameDeadLetter row : TickStep κ Unit).Accounts answer before report :=
  .record h .deadLettered hclaims nofun

/-- A settlement is made, or the claim is lost, or it fails.  Only what is made is still to be
reported. -/
theorem accounts_settle (h : before.Undecided claims report) (hclaims : claims ≤ 1)
    {outcome : Attempt κ MessagingError Row} {f : Option Row → TickStep κ Unit}
    (hsome : ∀ settled, (f (some settled)).Accounts answer before report) (hnone : f none = pure ()) :
    (settle outcome >>= f).Accounts answer before report := by
  intro state
  have hsettle : (settle outcome).Ends answer report state fun result last _ =>
      (∃ settled, result = .ok (some settled) ∧ last = report) ∨
      result = .ok none ∧ last = report.add .claimLost ∨
      ∃ error, result = .error error ∧ last = report := by
    refine TickStep.Ends.lifting ?_
    unfold Program.Ends
    dsimp only
    split
    · exact Or.inl ⟨_, rfl, rfl⟩
    · exact Or.inr (Or.inl ⟨rfl, rfl⟩)
    · exact Or.inr (Or.inr ⟨_, rfl, rfl⟩)
  refine TickStep.Ends.andThen hsettle ?_ ?_
  · rintro _ _ after (⟨settled, ⟨⟩, rfl⟩ | ⟨⟨⟩, rfl⟩ | ⟨_, ⟨⟩, _⟩)
    · exact hsome settled after
    · rw [hnone]
      exact ⟨.claimLost, h.add hclaims nofun⟩
  · rintro error _ after (⟨_, ⟨⟩, _⟩ | ⟨⟨⟩, _⟩ | ⟨_, ⟨⟩, rfl⟩)
    exact TickStep.Accounts.failed h hclaims error

theorem accounts_giveUp (h : before.Undecided claims report) (hclaims : claims ≤ 1)
    (reason : String) : (publisher.giveUp claimed reason).Accounts answer before report :=
  accounts_settle h hclaims (fun _ => accounts_becameDeadLetter h hclaims) rfl

theorem accounts_settleDelivered (h : before.Undecided 1 report) :
    (publisher.settleDelivered claimed).Accounts answer before report :=
  accounts_settle h (Nat.le_refl 1) (fun _ => .record h .processed (Nat.le_refl 1) fun _ => rfl) rfl

theorem accounts_settleFailed (h : before.Undecided 1 report) (reason : String) :
    (publisher.settleFailed claimed reason now).Accounts answer before report := by
  refine accounts_settle h (Nat.le_refl 1) (fun settled => ?_) rfl
  dsimp only
  split
  · exact accounts_becameDeadLetter h (Nat.le_refl 1)
  · exact .record h .retried (Nat.le_refl 1) fun _ => rfl

/-- A delivery begins with the claim being reported. -/
theorem accounts_deliver (h : before.Undecided 1 { report with claimed := report.claimed + 1 }) :
    (publisher.deliver claimed now).Accounts answer before report := by
  intro state
  unfold deliver
  refine TickStep.Ends.modifying ?_
  cases publisher.router.decode claimed with
  | error error => exact accounts_giveUp h (Nat.le_refl 1) error.message state
  | ok envelope =>
      refine TickStep.Accounts.lifting (fun outcome => ?_) state
      cases outcome with
      | ok _ => exact accounts_settleDelivered h
      | error error =>
          dsimp only
          split
          · exact accounts_settleFailed h error.message
          · exact accounts_giveUp h (Nat.le_refl 1) error.message

theorem accounts_takeUp (publisher : Publisher κ) (row : Row) (now : Instant) (report : TickReport) :
    (publisher.takeUp row now).Accounts answer report report := by
  have hstart := TickReport.Undecided.start report
  refine .of hstart (Nat.zero_le 1) fun answer => ?_
  cases answer with
  | none => exact accounts_lostClaim hstart (Nat.zero_le 1)
  | some claimed =>
      exact accounts_deliver
        ⟨rfl, fun outcome => by cases outcome <;> rfl, rfl, by simp, by simp⟩

theorem accounts_takeOver (publisher : Publisher κ) (row : Row) (now : Instant) (report : TickReport) :
    (publisher.takeOver row now).Accounts answer report report := by
  have hstart := TickReport.Undecided.start report
  refine .of hstart (Nat.zero_le 1) fun answer => ?_
  cases answer with
  | none => exact accounts_lostClaim hstart (Nat.zero_le 1)
  | some claimed =>
      dsimp only
      split
      · exact accounts_becameDeadLetter hstart (Nat.zero_le 1)
      · have hdeliver : (publisher.deliver claimed now).Accounts answer report
            { report with reclaimed := report.reclaimed + 1 } :=
          accounts_deliver ⟨rfl, fun outcome => by cases outcome <;> rfl, rfl, by simp, by simp⟩
        exact fun _ => hdeliver _

theorem accounts_postpone (publisher : Publisher κ) (row : Row) (now : Instant)
    (report : TickReport) : (publisher.postpone row now).Accounts answer report report := by
  have hstart := TickReport.Undecided.start report
  refine .of hstart (Nat.zero_le 1) fun answer => ?_
  cases answer with
  | none => exact accounts_lostClaim hstart (Nat.zero_le 1)
  | some changed =>
      dsimp only
      split
      · exact accounts_becameDeadLetter hstart (Nat.zero_le 1)
      · exact .record hstart .deferred (Nat.zero_le 1) nofun

theorem accounts_process (publisher : Publisher κ) (row : Row) (now : Instant) (report : TickReport) :
    (publisher.process row now).Accounts answer report report := by
  unfold process
  split
  · exact publisher.accounts_takeOver row now report
  · split
    · exact publisher.accounts_takeUp row now report
    · refine .of (.start report) (Nat.zero_le 1) fun resolved => ?_
      split
      · exact publisher.accounts_takeUp row now report
      · exact publisher.accounts_postpone row now report

/-- The turn of a row is its handling in a batch of its own.  It does not end the batch. -/
theorem processAll_cons (publisher : Publisher κ) (now : Instant) (row : Row) (rest : List Row)
    (report : TickReport) :
    publisher.processAll now (row :: rest) report =
      (publisher.processAll now [row] report).bind (publisher.processAll now rest) := by
  change Program.bind _ _ = (Program.bind _ _).bind _
  rw [Program.bind_assoc]
  refine congrArg (Program.bind _) (funext fun result => ?_)
  obtain ⟨outcome, report⟩ := result
  cases outcome with
  | ok value => rfl
  | error error => rfl

/-- However a turn goes, it comes to one outcome. -/
theorem turn_decided (answer : (call : Call κ) → σ → call.Answer × σ) (publisher : Publisher κ)
    (now : Instant) (row : Row) (report : TickReport) (state : σ) :
    (publisher.processAll now [row] report).Ends answer state fun last _ =>
      ∃ outcome, report.Decided outcome last := by
  refine Program.Ends.bind (Program.Ends.mono (publisher.accounts_process row now report state) ?_)
  rintro ⟨outcome, last⟩ after haccounted
  cases outcome with
  | ok value => exact haccounted
  | error error => exact ⟨.failed, haccounted⟩

/-- Rows have their turns one after another, and each turn comes to one outcome. -/
inductive Turns (publisher : Publisher κ) (answer : (call : Call κ) → σ → call.Answer × σ)
    (now : Instant) : List Row → List TurnOutcome → TickReport × σ → TickReport × σ → Prop where
  | none (last : TickReport × σ) : Turns publisher answer now [] [] last last
  | next {row : Row} {rest : List Row} {outcome : TurnOutcome} {outcomes : List TurnOutcome}
      {first last : TickReport × σ}
      (hturn : first.1.Decided outcome
        (Program.run answer (publisher.processAll now [row] first.1) first.2).1)
      (hrest : Turns publisher answer now rest outcomes
        (Program.run answer (publisher.processAll now [row] first.1) first.2) last) :
      Turns publisher answer now (row :: rest) (outcome :: outcomes) first last

theorem processAll_turns (answer : (call : Call κ) → σ → call.Answer × σ) (publisher : Publisher κ)
    (now : Instant) (rows : List Row) (report : TickReport) (state : σ) :
    ∃ outcomes, Turns publisher answer now rows outcomes (report, state)
      (Program.run answer (publisher.processAll now rows report) state) := by
  induction rows generalizing report state with
  | nil => exact ⟨[], .none (report, state)⟩
  | cons row rest ih =>
      obtain ⟨outcome, hturn⟩ := turn_decided answer publisher now row report state
      rw [processAll_cons, Program.run_bind]
      obtain ⟨outcomes, hrest⟩ := ih _ _
      exact ⟨outcome :: outcomes, .next hturn hrest⟩

structure Added (rows : List Row) (outcomes : List TurnOutcome) (before after : TickReport) : Prop where
  length_eq : outcomes.length = rows.length
  fetched : after.fetched = before.fetched
  tally : ∀ outcome, after.tally outcome = before.tally outcome + outcomes.count outcome
  claimed_ge : before.claimed ≤ after.claimed
  claimed_le : after.claimed ≤ before.claimed + rows.length
  reclaimed : after.reclaimed + before.claimed ≤ before.reclaimed + after.claimed
  delivered : outcomes.count .processed + outcomes.count .retried + before.claimed ≤ after.claimed

theorem Turns.added {rows : List Row} {outcomes : List TurnOutcome} {first last : TickReport × σ}
    (h : Turns publisher answer now rows outcomes first last) :
    Added rows outcomes first.1 last.1 := by
  induction h with
  | none last => exact ⟨rfl, rfl, fun _ => rfl, Nat.le_refl _, Nat.le_refl _, Nat.le_refl _, by simp⟩
  | @next row rest outcome outcomes first last hturn hrest ih =>
      have hclaimed := hturn.claimed_le
      have hkept := hturn.claimed_ge
      have hreclaimed := hturn.reclaimed
      constructor
      · simp [ih.length_eq]
      · exact ih.fetched.trans hturn.fetched
      · intro other
        rw [ih.tally, hturn.tally, List.count_cons]
        by_cases heq : other = outcome
        · simp [heq]
          omega
        · simp [heq, Ne.symm heq]
      · exact Nat.le_trans hkept ih.claimed_ge
      · have hrest := ih.claimed_le
        simp only [List.length_cons]
        omega
      · have hrest := ih.reclaimed
        omega
      · have hrest := ih.delivered
        have hone := hturn.delivered
        cases outcome <;> simp at hone ⊢ <;> omega

end Publisher

/-- Every outcome is one of six. -/
theorem TurnOutcome.length_eq (outcomes : List TurnOutcome) :
    outcomes.length = outcomes.count .processed + outcomes.count .retried +
      outcomes.count .deadLettered + outcomes.count .deferred + outcomes.count .claimLost +
      outcomes.count .failed := by
  induction outcomes with
  | nil => rfl
  | cons outcome rest ih =>
      cases outcome <;> simp [ih] <;> omega

/-- A tick that has fetched its batch gives every row of it a turn, whatever its calls are answered.
Each turn ends in one outcome.  The report counts the outcomes, and it counts no takeover and no
delivery without a claim. -/
theorem candidates_accounted (publisher : Publisher κ) (now : Instant)
    (answer : (call : Call κ) → σ → call.Answer × σ)
    (hlimit : ∀ query state rows, (answer (.due query) state).1 = .ok rows →
      rows.length ≤ query.limit)
    {state : σ} {rows : List Row}
    (hfetch : (answer (.due (publisher.batchQuery now)) state).1 = .ok rows) :
    ∃ report outcomes last,
      (Program.run answer (publisher.tickAt now).run state).1 = .ok report ∧
      publisher.Turns answer now rows outcomes
        ({ fetched := rows.length }, (answer (.due (publisher.batchQuery now)) state).2)
        (report, last) ∧
      (∀ outcome, report.tally outcome = outcomes.count outcome) ∧
      report.fetched = rows.length ∧
      report.fetched = report.processed + report.retried + report.deadLettered + report.deferred +
        report.lostClaims + report.errors ∧
      report.reclaimed ≤ report.claimed ∧ report.claimed ≤ report.fetched ∧
      report.fetched ≤ publisher.settings.batchSize ∧
      report.processed + report.retried ≤ report.claimed := by
  obtain ⟨outcomes, hturns⟩ := Publisher.processAll_turns answer publisher now rows
    { fetched := rows.length } (answer (.due (publisher.batchQuery now)) state).2
  have hreport : Program.Ends answer (publisher.tickAt now) state fun outcome _ =>
      outcome = .ok (Program.run answer (publisher.processAll now rows { fetched := rows.length })
        (answer (.due (publisher.batchQuery now)) state).2).1 :=
    Publisher.ends_tick hfetch rfl
  generalize Program.run answer (publisher.processAll now rows { fetched := rows.length })
    (answer (.due (publisher.batchQuery now)) state).2 = reached at hturns hreport
  obtain ⟨report, last⟩ := reached
  have hadded := hturns.added
  have htally : ∀ outcome, report.tally outcome = outcomes.count outcome := by
    intro outcome
    rw [hadded.tally outcome]
    cases outcome <;> exact Nat.zero_add _
  have hfetched : report.fetched = rows.length := hadded.fetched
  refine ⟨report, outcomes, last, hreport, hturns, htally, hfetched, ?_, ?_, ?_, ?_, ?_⟩
  · rw [hfetched, ← hadded.length_eq, TurnOutcome.length_eq, ← htally, ← htally, ← htally, ← htally,
      ← htally, ← htally]
    rfl
  · simpa using hadded.reclaimed
  · rw [hfetched]
    simpa using hadded.claimed_le
  · rw [hfetched]
    exact hlimit _ _ _ hfetch
  · have hdelivered := hadded.delivered
    rw [← htally, ← htally] at hdelivered
    exact hdelivered

/-- A store that hands out its first rows, and cannot change the first of them, for use in examples. -/
def stuck : (call : Call Unit) → Store → call.Answer × Store
  | .due query, store => (.ok (store.rows.take query.limit), store)
  | .swap change, store =>
      if change.id = ⟨1⟩ then (.error (.backend "locked"), store)
      else store.respond { clock := epoch } (.swap change : Call Unit)
  | call, store => store.respond { clock := epoch } call

def twoParcels : Store :=
  { Store.empty with
    rows := [Row.fresh ⟨1⟩ (parcel 1 none) epoch, Row.fresh ⟨2⟩ (parcel 2 none) epoch]
    issued := 2 }

/-- The first parcel cannot be claimed, and the second one is delivered. -/
theorem parcels_accounted :
    (Program.run stuck ((patience 2).tickAt epoch).run twoParcels).1 =
        .ok { fetched := 2, claimed := 1, processed := 1, errors := 1 } ∧
      ∃ report outcomes last,
        (Program.run stuck ((patience 2).tickAt epoch).run twoParcels).1 = .ok report ∧
        (patience 2).Turns stuck epoch twoParcels.rows outcomes ({ fetched := 2 }, twoParcels)
          (report, last) ∧
        (∀ outcome, report.tally outcome = outcomes.count outcome) ∧ report.fetched = 2 ∧
        report.fetched = report.processed + report.retried + report.deadLettered + report.deferred +
          report.lostClaims + report.errors ∧
        report.reclaimed ≤ report.claimed ∧ report.claimed ≤ report.fetched ∧
        report.fetched ≤ 100 ∧ report.processed + report.retried ≤ report.claimed := by
  have hlimit : ∀ query store rows, (stuck (.due query) store).1 = .ok rows →
      rows.length ≤ query.limit := by
    rintro query store _ ⟨⟩
    exact List.length_take_le ..
  exact ⟨by decide +kernel, candidates_accounted (patience 2) epoch stuck hlimit rfl⟩

end Courier
