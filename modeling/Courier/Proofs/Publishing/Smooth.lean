import Courier.Proofs.Interleaving.Faultless
import Courier.Proofs.Publishing.Causes
import Courier.Proofs.Publishing.Guards
import Courier.Proofs.Publishing.Reports
/-
Ticks without errors.  The guards of the custodian stand in nobody's way, so that what is left are
failures of the store itself and rows that are not there; and a row that a tick has seen is never taken
away.
-/
namespace Courier

variable {κ τ ρ α β ε : Type}

def Call.failed : (call : Call κ) → call.Answer → Bool
  | .due _, Except.error _ => true
  | .swap _, Except.error _ => true
  | .outgoing _, Except.error _ => true
  | _, _ => false

/-- Whether the store has failed a worker.  One that it has not failed counts no error. -/
def trouble : Protocol κ Bool where
  allows troubled call := troubled = false → call ≠ .count .messageError
  next troubled call answer := troubled || call.failed answer

/-- As long as the store does not fail the program, the program counts no error, and it ends as it
should. -/
def Program.Smooth (goal : α → Prop) (program : Program κ α) : Prop :=
  program.Keeps trouble (fun value troubled => troubled = false → goal value) false

namespace Program.Smooth

/-- Once the store has failed, nothing is promised. -/
theorem troubled (goal : α → Prop) (program : Program κ α) :
    program.Keeps trouble (fun value troubled => troubled = false → goal value) true := by
  induction program with
  | done value => exact nofun
  | ask call next ih => exact ⟨nofun, fun answer _ => ih answer⟩

theorem mono {goal other : α → Prop} {program : Program κ α} (h : program.Smooth goal)
    (hgoal : ∀ value, goal value → other value) : program.Smooth other :=
  Keeps.mono h fun value _ hvalue hnone => hgoal value (hvalue hnone)

theorem bind {middle : α → Prop} {goal : β → Prop} {program : Program κ α} {f : α → Program κ β}
    (h : program.Smooth middle) (hrest : ∀ value, middle value → (f value).Smooth goal) :
    (program.bind f).Smooth goal := by
  refine Keeps.bind (Keeps.mono h fun value trouble hvalue => ?_)
  cases trouble with
  | false => exact hrest value (hvalue rfl)
  | true => exact troubled goal (f value)

/-- A call that is no count of an error, and whose failure nothing is promised for. -/
theorem ask {goal : α → Prop} {call : Call κ} {next : call.Answer → Program κ α}
    (hcall : call ≠ .count .messageError)
    (hnext : ∀ answer, call.Plausible answer → call.failed answer = false →
      (next answer).Smooth goal) : (Program.ask call next).Smooth goal := by
  refine ⟨fun _ => hcall, fun answer hlikely => ?_⟩
  change (next answer).Keeps trouble _ (false || call.failed answer)
  cases hfailed : call.failed answer with
  | false => exact hnext answer hlikely hfailed
  | true => exact troubled goal (next answer)

theorem calling {δ : Type} {goal : Except ε α → Prop} {wrap : δ → ε}
    {program : Program κ (Except δ α)}
    (h : program.Smooth fun outcome => goal (outcome.mapError wrap)) :
    Program.Smooth goal (Attempt.calling wrap program) := by
  refine bind h fun outcome houtcome => ?_
  cases outcome with
  | ok value => exact fun _ => houtcome
  | error error => exact fun _ => houtcome

/-- An attempt that succeeds, and what comes after it. -/
theorem andThen {middle : α → Prop} {goal : Except ε β → Prop} {first : Attempt κ ε α}
    {f : α → Attempt κ ε β}
    (h : Program.Smooth (fun outcome => ∃ value, outcome = .ok value ∧ middle value) first)
    (hrest : ∀ value, middle value → Program.Smooth goal (f value)) :
    Program.Smooth goal (first >>= f : Attempt κ ε β) := by
  refine bind h fun outcome houtcome => ?_
  obtain ⟨value, rfl, hvalue⟩ := houtcome
  exact hrest value hvalue

/-- What comes after a program that cannot fail may depend on its value. -/
theorem lifting {middle : α → Prop} {goal : Except ε β → Prop} {program : Program κ α}
    {f : α → Attempt κ ε β} (h : program.Smooth middle)
    (hrest : ∀ value, middle value → Program.Smooth goal (f value)) :
    Program.Smooth goal ((liftM program : Attempt κ ε α) >>= f : Attempt κ ε β) := by
  refine Keeps.lifting (Keeps.mono h fun value troubled hvalue => ?_)
  cases troubled with
  | false => exact hrest value (hvalue rfl)
  | true => exact Smooth.troubled goal (f value)

end Program.Smooth

/-- As long as the store does not fail the step, the step succeeds and adds no error to the report. -/
def TickStep.Smooth (step : TickStep κ α) (goal : α → Prop) : Prop :=
  ∀ report, (step.runFrom report).Smooth fun result =>
    result.2.errors = report.errors ∧ ∃ value, result.1 = .ok value ∧ goal value

namespace TickStep.Smooth

theorem pure {goal : α → Prop} {value : α} (h : goal value) :
    TickStep.Smooth (Pure.pure value : TickStep κ α) goal :=
  fun _ _ => ⟨rfl, value, rfl, h⟩

theorem andThen {middle : α → Prop} {goal : β → Prop} {first : TickStep κ α} {f : α → TickStep κ β}
    (h : first.Smooth middle) (hrest : ∀ value, middle value → (f value).Smooth goal) :
    TickStep.Smooth (first >>= f) goal := by
  intro report
  refine Program.Smooth.bind (h report) fun result hresult => ?_
  obtain ⟨outcome, last⟩ := result
  obtain ⟨herrors, value, rfl, hmiddle⟩ := hresult
  refine (hrest value hmiddle last).mono fun result hresult => ?_
  exact ⟨hresult.1.trans herrors, hresult.2⟩

theorem modify {f : TickReport → TickReport} (hf : ∀ report, (f report).errors = report.errors) :
    TickStep.Smooth (modify f : TickStep κ PUnit) fun _ => True :=
  fun report _ => ⟨hf report, ⟨⟩, rfl, trivial⟩

theorem of {goal : α → Prop} {attempt : Attempt κ MessagingError α}
    (h : Program.Smooth (fun outcome => ∃ value, outcome = .ok value ∧ goal value) attempt) :
    (TickStep.of attempt).Smooth goal :=
  fun _ => Program.Smooth.bind h fun _ houtcome _ => ⟨rfl, houtcome⟩

theorem lift {goal : α → Prop} {program : Program κ α} (h : program.Smooth goal) :
    TickStep.Smooth (liftM program : TickStep κ α) goal := by
  intro report
  refine Program.Smooth.bind (Program.Smooth.bind h fun value hvalue => ?_) fun result hresult => hresult
  exact fun _ _ => ⟨rfl, value, rfl, hvalue⟩

end TickStep.Smooth

namespace Custodian

variable {custodian : Custodian} {row : Row}

/-- The answer to a change that the store does not fail: nobody, or the row as the change leaves it. -/
theorem smooth_swap (change : Change) :
    Program.Smooth (fun outcome => ∃ found, outcome = .ok found ∧
        ∀ row, found = some row → ∃ old, change.fits old = true ∧ row = old.apply change)
      (swap change : Attempt κ MessagingError (Option Row)) := by
  refine Program.Smooth.calling (Program.Smooth.ask nofun fun answer hlikely hfailed => ?_)
  match answer with
  | .error error => cases hfailed
  | .ok none => exact fun _ => ⟨none, rfl, fun row hrow => nomatch hrow⟩
  | .ok (some found) =>
      refine fun _ => ⟨some found, rfl, fun row hrow => ?_⟩
      obtain rfl := Option.some.inj hrow
      exact hlikely

/-- A claim was settled, or somebody else was there first. -/
inductive Ended : Except MessagingError Row → Prop where
  | settled (row : Row) : Ended (.ok row)
  | lost (id : RowId) : Ended (.error (.claimConflict id))

theorem smooth_apply (change : Change) :
    Program.Smooth Ended (apply change : Attempt κ MessagingError Row) := by
  refine Program.Smooth.andThen (smooth_swap change) fun found _ => ?_
  cases found with
  | none => exact fun _ => .lost change.id
  | some row => exact fun _ => .settled row

theorem smooth_now {goal : Except ε α → Prop} {rest : Instant → Attempt κ ε α}
    (h : ∀ now, Program.Smooth goal (rest now)) :
    Program.Smooth goal ((liftM (Program.now κ) : Attempt κ ε Instant) >>= rest : Attempt κ ε α) :=
  Program.Smooth.ask nofun fun now _ _ => h now

theorem smooth_causeResolved (cause : MessageId) :
    Program.Smooth (fun outcome => ∃ resolved, outcome = .ok resolved ∧ True)
      (causeResolved cause : Attempt κ MessagingError Bool) := by
  have hasked : Program.Smooth (fun outcome => ∃ statuses, outcome = .ok statuses ∧ True)
      (Attempt.calling .store (Program.perform (.outgoing cause)) :
        Attempt κ MessagingError (List Status)) := by
    refine Program.Smooth.calling (Program.Smooth.ask nofun fun answer _ hfailed => ?_)
    match answer with
    | .error error => cases hfailed
    | .ok statuses => exact fun _ => ⟨statuses, rfl, trivial⟩
  exact Program.Smooth.andThen hasked fun statuses _ _ => ⟨_, rfl, trivial⟩

end Custodian

namespace Publisher

variable {publisher : Publisher κ} {row claimed : Row} {now : Instant}

abbrev Smooth (step : TickStep κ α) : Prop :=
  step.Smooth fun _ => True

theorem smooth_record {sample : Sample} {f : TickReport → TickReport} (hsample : sample ≠ .messageError)
    (hf : ∀ report, (f report).errors = report.errors) :
    Smooth (TickStep.record sample f : TickStep κ Unit) := by
  refine TickStep.Smooth.andThen (TickStep.Smooth.modify hf) fun _ _ => ?_
  refine TickStep.Smooth.lift (Program.Smooth.ask (fun hcall => hsample ?_) fun _ _ _ _ => trivial)
  exact Call.count.inj hcall

theorem smooth_lostClaim : Smooth (lostClaim : TickStep κ Unit) :=
  smooth_record nofun fun _ => rfl

theorem smooth_becameDeadLetter : Smooth (becameDeadLetter row : TickStep κ Unit) :=
  smooth_record nofun fun _ => rfl

/-- A claim that is settled or lost is no error. -/
theorem smooth_settle {outcome : Attempt κ MessagingError Row}
    (h : Program.Smooth Custodian.Ended outcome) : Smooth (settle outcome) := by
  refine TickStep.Smooth.andThen (TickStep.Smooth.lift h) fun settled hsettled => ?_
  cases hsettled with
  | settled row => exact TickStep.Smooth.pure trivial
  | lost id => exact TickStep.Smooth.andThen smooth_lostClaim fun _ _ => TickStep.Smooth.pure trivial

/-- What becomes of a settled row is only reported. -/
theorem smooth_settled {outcome : Attempt κ MessagingError Row} {rest : Option Row → TickStep κ Unit}
    (h : Program.Smooth Custodian.Ended outcome) (hrest : ∀ settled, Smooth (rest settled)) :
    Smooth (settle outcome >>= rest) :=
  TickStep.Smooth.andThen (smooth_settle h) fun settled _ => hrest settled

theorem smooth_giveUp (h : publisher.custodian.Honours κ claimed) (reason : String) :
    Smooth (publisher.giveUp claimed reason) := by
  refine smooth_settled ?_ fun settled => ?_
  · rw [h.malformed]
    exact Custodian.smooth_now fun clock => Custodian.smooth_apply _
  · cases settled with
    | some row => exact smooth_becameDeadLetter
    | none => exact TickStep.Smooth.pure trivial

theorem smooth_settleDelivered (h : publisher.custodian.Honours κ claimed) :
    Smooth (publisher.settleDelivered claimed) := by
  refine smooth_settled ?_ fun settled => ?_
  · rw [h.processed]
    exact Custodian.smooth_now fun clock => Custodian.smooth_apply _
  · cases settled with
    | some row => exact smooth_record nofun fun _ => rfl
    | none => exact TickStep.Smooth.pure trivial

theorem smooth_settleFailed (h : publisher.custodian.Honours κ claimed) (reason : String) :
    Smooth (publisher.settleFailed claimed reason now) := by
  refine smooth_settled ?_ fun settled => ?_
  · rw [h.failure]
    exact Custodian.smooth_now fun clock => Custodian.smooth_apply _
  · cases settled with
    | none => exact TickStep.Smooth.pure trivial
    | some row =>
        dsimp only
        split
        · exact smooth_becameDeadLetter
        · exact smooth_record nofun fun _ => rfl

/-- Whatever the buses answer, the store is not asked. -/
theorem smooth_router (envelope : RawEnvelope) :
    Program.Smooth (fun _ => True) (publisher.router.deliver claimed envelope) := by
  rcases publisher.router.deliver_cases claimed envelope with
    ⟨error, hdeliver⟩ | ⟨key, hdeliver⟩ | ⟨command, hdeliver⟩
  · rw [hdeliver]
    exact fun _ => trivial
  · rw [hdeliver]
    exact Program.Smooth.ask nofun fun _ _ _ _ => trivial
  · rw [hdeliver]
    exact Program.Smooth.ask nofun fun _ _ _ _ => trivial

theorem smooth_deliver (h : publisher.custodian.Honours κ claimed) :
    Smooth (publisher.deliver claimed now) := by
  refine TickStep.Smooth.andThen (TickStep.Smooth.modify fun _ => rfl) fun _ _ => ?_
  split
  · exact smooth_giveUp h _
  · refine TickStep.Smooth.andThen (TickStep.Smooth.lift (smooth_router _)) fun outcome _ => ?_
    split
    · exact smooth_settleDelivered h
    · split
      · exact smooth_settleFailed h _
      · exact smooth_giveUp h _

theorem smooth_takeUp (h : publisher.custodian.Admits κ row now) (hfree : row.status ≠ .processing) :
    Smooth (publisher.takeUp row now) := by
  unfold takeUp
  rw [h.claim hfree]
  refine TickStep.Smooth.andThen (TickStep.Smooth.of (Custodian.smooth_swap _)) fun found hfound => ?_
  cases found with
  | none => exact smooth_lostClaim
  | some claimed =>
      obtain ⟨old, hfits, rfl⟩ := hfound claimed rfl
      exact smooth_deliver (h.claimed hfree old hfits)

theorem smooth_takeOver (h : publisher.custodian.Admits κ row now) (hheld : row.status = .processing) :
    Smooth (publisher.takeOver row now) := by
  unfold takeOver
  rw [h.reclaim hheld]
  refine TickStep.Smooth.andThen (TickStep.Smooth.of (Custodian.smooth_swap _)) fun found hfound => ?_
  cases found with
  | none => exact smooth_lostClaim
  | some claimed =>
      obtain ⟨old, hfits, rfl⟩ := hfound claimed rfl
      dsimp only
      split
      · exact smooth_becameDeadLetter
      · rename_i hlive
        refine TickStep.Smooth.andThen (smooth_record nofun fun _ => rfl) fun _ _ => ?_
        exact smooth_deliver (h.reclaimed hheld old hfits (by simpa using hlive))

theorem smooth_postpone (h : publisher.custodian.Admits κ row now) (hfree : row.status ≠ .processing) :
    Smooth (publisher.postpone row now) := by
  unfold postpone
  dsimp only
  rw [h.defer hfree]
  refine TickStep.Smooth.andThen (TickStep.Smooth.of (Custodian.smooth_swap _)) fun found _ => ?_
  cases found with
  | none => exact smooth_lostClaim
  | some changed =>
      dsimp only
      split
      · exact smooth_becameDeadLetter
      · exact smooth_record nofun fun _ => rfl

theorem smooth_process (h : publisher.custodian.Admits κ row now) :
    Smooth (publisher.process row now) := by
  unfold process
  split
  · exact smooth_takeOver h ‹_›
  · rename_i hfree
    split
    · exact smooth_takeUp h hfree
    · refine TickStep.Smooth.andThen (TickStep.Smooth.of (Custodian.smooth_causeResolved _)) ?_
      intro resolved _
      split
      · exact smooth_takeUp h hfree
      · exact smooth_postpone h hfree

theorem smooth_processAll {rows : List Row}
    (h : ∀ row ∈ rows, publisher.custodian.Admits κ row now) (report : TickReport) :
    Program.Smooth (fun last => last.errors = report.errors)
      (publisher.processAll now rows report) := by
  induction rows generalizing report with
  | nil => exact fun _ => rfl
  | cons row rest ih =>
      obtain ⟨hrow, hrest⟩ := List.forall_mem_cons.1 h
      refine Program.Smooth.bind (smooth_process hrow report) fun result hresult => ?_
      obtain ⟨outcome, middle⟩ := result
      obtain ⟨herrors, value, rfl, _⟩ := hresult
      exact (ih hrest middle).mono fun last hlast => hlast.trans herrors

/-- A tick that the store does not fail reports no errors. -/
theorem smooth_tick (publisher : Publisher κ) (now : Instant) :
    Program.Smooth (fun outcome => ∃ report, outcome = .ok report ∧ report.errors = 0)
      (publisher.tickAt now : Attempt κ PublisherError TickReport) := by
  have hbatch : Program.Smooth
      (fun outcome => ∃ rows, outcome = .ok rows ∧ ∀ row ∈ rows, publisher.custodian.Admits κ row now)
      (Attempt.calling .messaging (publisher.custodian.due now publisher.settings.batchSize).run :
        Attempt κ PublisherError (List Row)) := by
    refine Program.Smooth.calling (Program.Smooth.calling (Program.Smooth.ask nofun ?_))
    intro answer hlikely hfailed
    match answer with
    | .error error => cases hfailed
    | .ok rows =>
        refine fun _ => ⟨rows, rfl, fun row hrow => ?_⟩
        exact Custodian.admits_of_selects (hlikely row hrow) publisher.settings.claimTimeout
  refine Program.Smooth.andThen hbatch fun rows hrows => ?_
  have hall := smooth_processAll hrows { fetched := rows.length }
  refine Program.Smooth.lifting hall fun report hreport => ?_
  exact Program.Smooth.ask nofun fun _ _ _ _ => ⟨report, rfl, hreport⟩

end Publisher

/-- Publishers tick under any settings, while others make whatever calls they like, on a store that
neither fails nor is cleared. -/
def amid (κ : Type) : Rules κ (Shift κ) (Except PublisherError TickReport) where
  admits _ _ := true
  program shift := shift.publisher.tickAt shift.now
  bystander _ := true
  mishap _ _ := false
  clears := false

theorem amid_follows : (amid κ).Follows Shift.protocol fun _ => Phase.start :=
  Publisher.keeps_tick

theorem amid_smooth : (amid κ).FollowsTo (fun _ => trouble)
    (fun _ outcome troubled => troubled = false →
      ∃ report, outcome = .ok report ∧ report.errors = 0) fun _ => false :=
  fun shift => Publisher.smooth_tick shift.publisher shift.now

/-- What a tick knows was committed, and is committed still. -/
theorem known_there {rules : Rules κ τ ρ} (hlasting : rules.clears = false)
    (actions : List (Action κ τ)) (number : Nat) {row : Row}
    (hrow : row ∈ (phaseOf number (rules.world actions).history).known) :
    ((rules.world actions).store.get? row.id).isSome = true := by
  refine Rules.call_induction hlasting
    (fun store _ history => ∀ row ∈ (phaseOf number history).known,
      (store.get? row.id).isSome = true) ?_ ?_ actions row hrow
  · intro row hrow
    cases hrow
  · intro earlier moment ih hmakes row hrow
    simp only [phaseOf] at hrow
    split at hrow
    · rcases known_committed hmakes _ hrow with hold | hnew
      · exact isSome_after hmakes (ih row hold)
      · exact hnew
    · exact isSome_after hmakes (ih row hrow)

/-- A faithful store fails only a change of a row that is not there. -/
theorem Moment.Faithful.failed {moment : Moment κ τ} (h : moment.Faithful)
    (hthere : ∀ change, moment.call = .swap change →
      (moment.before.get? change.id).isSome = true) :
    moment.call.failed moment.answer = false := by
  obtain ⟨manner, hmishap, hresponse⟩ := h
  obtain ⟨worker, call, answer, before, after⟩ := moment
  have hanswer : answer = (before.respond manner call).1 := congrArg Prod.fst hresponse
  change call.failed answer = false
  rw [hanswer]
  cases call with
  | due query =>
      rw [Store.respond, Manner.onStore_of_none hmishap]
      rfl
  | outgoing id =>
      rw [Store.respond, Manner.onStore_of_none hmishap]
      rfl
  | swap change =>
      obtain ⟨current, hcurrent⟩ := Option.isSome_iff_exists.1 (hthere change rfl)
      simp only [Store.respond, Manner.onStore_of_none hmishap, Store.swap, hcurrent]
      split
      · rfl
      · rfl
  | _ => rfl

/-- The store never fails a tick. -/
theorem amid_failed {earlier : List (Action κ (Shift κ))} {moment : Moment κ (Shift κ)}
    (hmakes : (amid κ).Makes ((amid κ).world earlier) moment) {worker : Worker (Shift κ)}
    (hworker : moment.worker = some worker) : moment.call.failed moment.answer = false := by
  have hfaultless : (amid κ).faultless.Makes ((amid κ).world earlier) moment := hmakes
  refine hfaultless.faithful.failed fun change hcall => ?_
  have hallows := hmakes.allows amid_follows hworker
  rw [phase_eq_phaseOf fun _ => rfl, hcall] at hallows
  obtain ⟨row, hturn⟩ := hallows
  rw [hmakes.before, hturn.lawful.expects.1]
  exact known_there rfl earlier worker.number hturn.known

/-- No tick has any trouble. -/
theorem amid_untroubled (actions : List (Action κ (Shift κ))) (worker : Worker (Shift κ)) :
    ((amid κ).world actions).phase (fun _ => trouble) (fun _ => false) worker = false := by
  refine Rules.call_induction rfl
    (fun _ _ history => (trouble : Protocol κ Bool).phase false worker.number history = false)
    rfl ?_ actions
  intro earlier moment ih hmakes
  simp only [Protocol.phase, ih]
  split
  · rename_i hby
    obtain ⟨caller, hcaller, _⟩ := Moment.isBy_iff.1 hby
    exact amid_failed hmakes hcaller
  · rfl

/-- A row that is due may be handled, whatever it holds: no guard stops a tick that takes it over, takes
it up or postpones it under the same ceiling, nor one that settles the claim it has won.  So in every
interleaving with whatever others do, on a store that does not fail and is not cleared, no tick ever
counts an error, and each that comes to its end reports none. -/
theorem ticks_without_errors (κ : Type) :
    (∀ (query : DueQuery) (row : Row) (claimTimeout : Span), query.selects row = true →
      Custodian.Admits κ ⟨query.maxRetries, claimTimeout⟩ row query.now) ∧
    ∀ actions : List (Action κ (Shift κ)),
      (∀ moment ∈ ((amid κ).world actions).history, ∀ worker, moment.worker = some worker →
        moment.call ≠ .count .messageError) ∧
      ∀ shift result, ⟨shift, .done result⟩ ∈ ((amid κ).world actions).jobs →
        ∃ report, result = .ok report ∧ report.errors = 0 := by
  refine ⟨fun query row claimTimeout h => Custodian.admits_of_selects h claimTimeout, ?_⟩
  refine fun actions => ⟨fun moment hmoment worker hworker => ?_, fun shift result hjob => ?_⟩
  · obtain ⟨later, past, hsplit⟩ := List.append_of_mem hmoment
    obtain ⟨earlier, _, hmakes⟩ := World.made_earlier rfl actions hsplit
    exact hmakes.allows amid_smooth hworker (amid_untroubled earlier worker)
  · obtain ⟨number, hnumber⟩ := List.getElem?_of_mem hjob
    have hworker : ((amid κ).world actions).jobs[(⟨number, shift⟩ : Worker (Shift κ)).number]? =
        some ⟨shift, .done result⟩ := hnumber
    exact (World.keeping amid_smooth actions).ended hworker (amid_untroubled actions _)

/-- A parcel is fetched twice.  The one who fetched it last delivers it before the other one, who wants
to claim it as well, gets any further. -/
def parcelRaced : List (Action Unit (Shift Unit)) :=
  List.replicate 3 (.work 0 { clock := epoch }) ++ ticking epoch 1 7 (.ok ()) ++
    ticking epoch 0 1 (.ok ()) ++ posted 1 (parcel 1 none)

/-- A parcel whose claim runs out at this instant. -/
def parcelExpiring : Row :=
  { Row.fresh ⟨1⟩ (parcel 1 none) epoch with status := .processing }

theorem parcel_raced :
    (Custodian.hasExpired parcelExpiring epoch = true ∧
      Custodian.Admits Unit ⟨2, Span.ofSeconds 300⟩ parcelExpiring epoch) ∧
    ((amid Unit).world parcelRaced).reports =
      [{ fetched := 1, lostClaims := 1 }, { fetched := 1, claimed := 1, processed := 1 }] ∧
    (∀ moment ∈ ((amid Unit).world parcelRaced).history, ∀ worker, moment.worker = some worker →
      moment.call ≠ .count .messageError) ∧
    ∀ report ∈ ((amid Unit).world parcelRaced).reports, report.errors = 0 := by
  have hdue : (DueQuery.all epoch 2 1).selects parcelExpiring = true := by decide +kernel
  obtain ⟨hadmits, hruns⟩ := ticks_without_errors Unit
  obtain ⟨hcounts, hends⟩ := hruns parcelRaced
  refine ⟨⟨by decide +kernel, hadmits _ _ (Span.ofSeconds 300) hdue⟩, by decide +kernel, hcounts, ?_⟩
  intro report hreport
  obtain ⟨⟨shift, rest⟩, hjob, hdone⟩ := List.mem_filterMap.1 hreport
  match rest with
  | .ask _ _ => cases hdone
  | .done (.error _) => cases hdone
  | .done (.ok _) =>
      obtain rfl := Option.some.inj hdone
      obtain ⟨ended, hended, herrors⟩ := hends shift _ hjob
      obtain rfl := Except.ok.inj hended
      exact herrors

end Courier
