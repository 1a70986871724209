import Courier.Proofs.Publishing.Phases
/-
A tick keeps to the protocol of publishers, one function of the publisher after another.  Between two
rows it has no claim at hand: each claim that it wins is settled first, by what became of it.
-/
namespace Courier

variable {κ α : Type}

/-- A change concerns nothing but the claim at hand. -/
theorem Phase.next_swap (phase : Phase) (change : Change)
    (answer : (Call.swap change : Call κ).Answer) :
    ∃ hold, phase.next (.swap change : Call κ) answer = { phase with hold := hold } := by
  match answer with
  | .ok (some row) => exact ⟨_, rfl⟩
  | .ok none => exact ⟨_, rfl⟩
  | .error error => exact ⟨_, rfl⟩

theorem Phase.batch_next_swap (phase : Phase) (change : Change)
    (answer : (Call.swap change : Call κ).Answer) :
    (phase.next (.swap change : Call κ) answer).batch = phase.batch := by
  obtain ⟨hold, heq⟩ := phase.next_swap change answer
  rw [heq]

/-- A single envelope is scheduled by one call on its handler, or it fails before any call is made. -/
theorem Registry.schedule_cases (registry : Registry κ) (envelope : RawEnvelope) :
    (∃ error, registry.command envelope = .error error ∧
      registry.schedule [envelope] = .done (.error (BusError.ofMessaging error))) ∨
      ∃ command, registry.command envelope = .ok command ∧ registry.schedule [envelope] =
        .ask (.handle command) fun answer => .done (answer.mapError BusError.ofMessaging) := by
  cases hcommand : registry.command envelope with
  | error error =>
      refine Or.inl ⟨error, rfl, ?_⟩
      simp only [schedule, dispatch, hcommand]
      rfl
  | ok command =>
      refine Or.inr ⟨command, rfl, ?_⟩
      simp only [schedule, dispatch, hcommand]
      change Program.ask (.handle command) _ = _
      congr 1
      funext answer
      cases answer with
      | ok value => rfl
      | error error => rfl

namespace Router

variable (router : Router κ) (row : Row) (envelope : RawEnvelope)

theorem deliver_outbox (h : row.delivery = .outbox) :
    router.deliver row envelope =
      .ask (.publish (router.routingKey row.dataType) envelope) .done := by
  simp only [deliver, h]
  rfl

theorem deliver_inside (h : row.delivery ≠ .outbox) :
    router.deliver row envelope = router.registry.schedule [envelope] := by
  cases hdelivery : row.delivery with
  | outbox => exact absurd hdelivery h
  | internal => simp only [deliver, hdelivery]
  | inbox => simp only [deliver, hdelivery]

/-- A delivery is one call on a bus or a handler, or it fails before any call is made. -/
theorem deliver_cases :
    (∃ error, router.deliver row envelope = .done (.error error)) ∨
    (∃ key, router.deliver row envelope = .ask (.publish key envelope) .done) ∨
    ∃ command, router.deliver row envelope =
      .ask (.handle command) fun answer => .done (answer.mapError BusError.ofMessaging) := by
  by_cases hdelivery : row.delivery = .outbox
  · exact Or.inr (Or.inl ⟨_, router.deliver_outbox row envelope hdelivery⟩)
  · rw [router.deliver_inside row envelope hdelivery]
    exact (router.registry.schedule_cases envelope).imp (fun ⟨error, _, hdone⟩ => ⟨_, hdone⟩)
      fun ⟨command, _, hask⟩ => Or.inr ⟨command, hask⟩

end Router

def Row.Claimed (row : Row) : Prop :=
  row.status = .processing ∧ row.deadLettered = false

/-- Nothing forbids to settle a claim. -/
theorem Row.Claimed.refusal?_eq_none {row : Row} (h : row.Claimed) {next : Status}
    (hnext : next = .processed ∨ next = .failed) (maxRetries : Count) :
    row.refusal? next maxRetries = none := by
  obtain ⟨hstatus, hlive⟩ := h
  refine Row.refusal?_eq_none_iff.2 ⟨?_, hlive, by simp [hstatus]⟩
  rw [hstatus]
  rcases hnext with rfl | rfl
  · rfl
  · rfl

theorem Custodian.fits_reclaimChange (custodian : Custodian) (row : Row) (now : Instant) :
    (custodian.reclaimChange row now).fits row = true := by
  rcases custodian.reclaimChange_cases row now with ⟨_, heq⟩ | ⟨_, heq⟩
  · rw [heq]
    exact Change.fits_of row
  · rw [heq]
    exact Change.fits_of row

theorem Custodian.fits_deferChange (custodian : Custodian) (row : Row) (next : Instant) :
    (custodian.deferChange row next).fits row = true := by
  rcases custodian.deferChange_cases row next with ⟨_, heq⟩ | ⟨_, heq⟩
  · rw [heq]
    exact Change.fits_of row
  · rw [heq]
    exact Change.fits_of row

/-- Between two rows of a batch there is no claim at hand. -/
def Phase.Idle (batch : List Row) (phase : Phase) : Prop :=
  phase.batch = batch ∧ phase.hold = .nothing

namespace Publisher

variable {shift : Shift κ} {phase : Phase} {batch : List Row} {row claimed : Row}

/-- However the step ends, the worker goes on with the same batch and no claim. -/
abbrev Keeps (shift : Shift κ) (batch : List Row) (step : TickStep κ α) (phase : Phase) : Prop :=
  step.Keeps shift.settling (fun _ after => after.Idle batch) phase

theorem keeps_record {ends : Except MessagingError Unit → Phase → Prop} {sample : Sample}
    {f : TickReport → TickReport} (h : ends (.ok ()) phase) :
    (TickStep.record sample f : TickStep κ Unit).Keeps shift.settling ends phase := by
  refine TickStep.Keeps.andThen (TickStep.Keeps.modify ⟨fun _ _ => ?_, fun error herror => ?_⟩)
  · exact TickStep.Keeps.lift ⟨Shift.settling_of_allows trivial rfl, fun _ _ => h⟩
  · cases herror

theorem keeps_lostClaim (hidle : phase.Idle batch) : Keeps shift batch lostClaim phase :=
  keeps_record hidle

theorem keeps_becameDeadLetter (hidle : phase.Idle batch) :
    Keeps shift batch (becameDeadLetter row) phase :=
  keeps_record hidle

/-- A change that claims nothing leaves no claim at hand, whatever it is answered. -/
theorem idle_next_swap {change : Change} {answer : (Call.swap change : Call κ).Answer}
    (hlikely : Call.Plausible (.swap change : Call κ) answer) (hstatus : change.status ≠ .processing)
    (hbatch : phase.batch = batch) : (phase.next (.swap change : Call κ) answer).Idle batch := by
  refine ⟨(phase.batch_next_swap change answer).trans hbatch, ?_⟩
  match answer with
  | .error error => rfl
  | .ok none => rfl
  | .ok (some found) =>
      obtain ⟨old, _, rfl⟩ := hlikely
      exact if_neg hstatus

/-- The change by which a claim is settled. -/
theorem keeps_apply {change : Change} (hturn : shift.Turn phase row change)
    (hsettled : phase.hold.SettledBy change) (hstatus : change.status ≠ .processing)
    (hbatch : phase.batch = batch) :
    Program.Keeps shift.settling (fun _ after => after.Idle batch)
      (Custodian.apply change : Attempt κ MessagingError Row) phase := by
  have hallows : shift.settling.allows phase (.swap change) := by
    refine ⟨⟨row, hturn⟩, fun other hother => ?_⟩
    cases hother
    exact hsettled
  refine Program.Keeps.andThen (Program.Keeps.calling ⟨hallows, fun answer hlikely => ?_⟩)
  have hidle := idle_next_swap hlikely hstatus hbatch
  refine ⟨fun value _ => ?_, fun _ _ => hidle⟩
  cases value with
  | some changed => exact hidle
  | none => exact hidle

theorem keeps_settle {outcome : Attempt κ MessagingError Row}
    (h : Program.Keeps shift.settling (fun _ after => after.Idle batch) outcome phase) :
    Keeps shift batch (settle outcome) phase := by
  refine TickStep.Keeps.andThen (TickStep.Keeps.lift (h.mono fun result after hidle => ?_))
  refine ⟨fun value _ => ?_, fun _ _ => hidle⟩
  split
  · exact fun _ => hidle
  · refine TickStep.Keeps.andThen ((keeps_lostClaim hidle).mono fun outcome last hlast => ?_)
    exact ⟨fun _ _ _ => hlast, fun _ _ => hlast⟩
  · exact fun _ => hidle

/-- What becomes of a settled row is only reported. -/
theorem keeps_settled {outcome : Attempt κ MessagingError Row} {rest : Option Row → TickStep κ Unit}
    (h : Program.Keeps shift.settling (fun _ after => after.Idle batch) outcome phase)
    (hrest : ∀ settled after, after.Idle batch → Keeps shift batch (rest settled) after) :
    Keeps shift batch (settle outcome >>= rest) phase := by
  refine TickStep.Keeps.andThen ((keeps_settle h).mono fun outcome after hidle => ?_)
  exact ⟨fun settled _ => hrest settled after hidle, fun _ _ => hidle⟩

/-- A claim that is looked at before it is settled passes. -/
theorem keeps_passed {custodian : Custodian} {next : Status}
    {rest : Unit → Attempt κ MessagingError Row} (hclaimed : claimed.Claimed)
    (hnext : next = .processed ∨ next = .failed)
    (hrest : claimed.refusal? next custodian.maxRetries = none →
      Program.Keeps shift.settling (fun _ after => after.Idle batch) (rest ()) phase) :
    Program.Keeps shift.settling (fun _ after => after.Idle batch)
      (Attempt.ofExcept (custodian.check claimed next) >>= rest : Attempt κ MessagingError Row)
      phase := by
  have hlook := hclaimed.refusal?_eq_none hnext custodian.maxRetries
  have hpassed : custodian.check claimed next = .ok () := by
    unfold Custodian.check
    rw [hlook]
  rw [hpassed]
  exact hrest hlook

theorem keeps_giveUp {reason : String} (hhold : phase.hold.undelivered? = some claimed)
    (hclaimed : claimed.Claimed) (hbatch : phase.batch = batch) :
    Keeps shift batch (shift.publisher.giveUp claimed reason) phase := by
  refine keeps_settled (keeps_passed hclaimed (Or.inr rfl) fun hlook => ?_) ?_
  · refine ⟨Shift.settling_of_allows trivial rfl, fun clock _ => ?_⟩
    refine keeps_apply (.giveUp reason clock hhold hlook) ?_ nofun hbatch
    exact Hold.settledBy_of_undelivered hhold (Change.fits_of claimed) rfl
  · intro settled after hidle
    cases settled with
    | some row => exact keeps_becameDeadLetter hidle
    | none => exact fun _ => hidle

theorem keeps_settleDelivered (hhold : phase.hold = .handed claimed true) (hclaimed : claimed.Claimed)
    (hbatch : phase.batch = batch) :
    Keeps shift batch (shift.publisher.settleDelivered claimed) phase := by
  have hsettled : ∀ clock, phase.hold.SettledBy (Custodian.processedChange claimed clock) := by
    intro clock
    rw [hhold]
    exact ⟨Change.fits_of claimed, rfl⟩
  refine keeps_settled (keeps_passed hclaimed (Or.inl rfl) fun hlook => ?_) ?_
  · refine ⟨Shift.settling_of_allows trivial rfl, fun clock _ => ?_⟩
    exact keeps_apply (.succeed clock hhold hlook) (hsettled clock) nofun hbatch
  · intro settled after hidle
    cases settled with
    | some row => exact keeps_record hidle
    | none => exact fun _ => hidle

theorem keeps_settleFailed {reason : String} (hhold : phase.hold.undelivered? = some claimed)
    (hclaimed : claimed.Claimed) (hbatch : phase.batch = batch) :
    Keeps shift batch (shift.publisher.settleFailed claimed reason shift.now) phase := by
  refine keeps_settled (keeps_passed hclaimed (Or.inr rfl) fun hlook => ?_) ?_
  · refine ⟨Shift.settling_of_allows trivial rfl, fun clock _ => ?_⟩
    refine keeps_apply (.fail reason clock hhold hlook) ?_ nofun hbatch
    exact Hold.settledBy_of_undelivered hhold (Change.fits_of claimed) rfl
  · intro settled after hidle
    cases settled with
    | some row =>
        dsimp only
        split
        · exact keeps_becameDeadLetter hidle
        · exact keeps_record hidle
    | none => exact fun _ => hidle

/-- What a worker knows of its claim once the router has answered. -/
def Answered (phase : Phase) (claimed : Row) (outcome : Except BusError Unit) (after : Phase) : Prop :=
  after.batch = phase.batch ∧
    match outcome with
    | .ok _ => after.hold = .handed claimed true
    | .error _ => after.hold.undelivered? = some claimed

/-- The router hands a claimed row over once at most. -/
theorem keeps_router {envelope : RawEnvelope} (hhold : phase.hold = .claimed claimed)
    (hdecode : shift.publisher.router.decode claimed = .ok envelope) :
    (shift.publisher.router.deliver claimed envelope).Keeps shift.settling
      (Answered phase claimed) phase := by
  have hheld : ∀ delivered, phase.hold.handOver delivered = .handed claimed delivered := by
    intro delivered
    rw [hhold]
    rfl
  rcases shift.publisher.router.deliver_cases claimed envelope with
    ⟨error, hdeliver⟩ | ⟨key, hdeliver⟩ | ⟨command, hdeliver⟩
  · rw [hdeliver]
    exact ⟨rfl, by rw [hhold]; rfl⟩
  · have hover : shift.HandsOver claimed (.publish key envelope) := ⟨envelope, hdecode, _, hdeliver⟩
    rw [hdeliver]
    refine ⟨Shift.settling_of_allows ⟨claimed, hhold, hover⟩ rfl, fun answer _ => ⟨rfl, ?_⟩⟩
    cases answer with
    | ok value => exact hheld true
    | error error => exact congrArg Hold.undelivered? (hheld false)
  · have hover : shift.HandsOver claimed (.handle command) := ⟨envelope, hdecode, _, hdeliver⟩
    rw [hdeliver]
    refine ⟨Shift.settling_of_allows ⟨claimed, hhold, hover⟩ rfl, fun answer _ => ⟨rfl, ?_⟩⟩
    cases answer with
    | ok value => exact hheld true
    | error error => exact congrArg Hold.undelivered? (hheld false)

theorem keeps_deliver (hhold : phase.hold = .claimed claimed) (hclaimed : claimed.Claimed)
    (hbatch : phase.batch = batch) :
    Keeps shift batch (shift.publisher.deliver claimed shift.now) phase := by
  refine TickStep.Keeps.andThen (TickStep.Keeps.modify ⟨fun _ _ => ?_, fun error herror => ?_⟩)
  · cases hdecode : shift.publisher.router.decode claimed with
    | error error =>
        refine keeps_giveUp ?_ hclaimed hbatch
        rw [hhold]
        rfl
    | ok envelope =>
        refine TickStep.Keeps.andThen
          (TickStep.Keeps.lift ((keeps_router hhold hdecode).mono fun outcome after hafter => ?_))
        obtain ⟨hsame, hanswer⟩ := hafter
        have hafter := hsame.trans hbatch
        refine ⟨fun value hvalue => ?_, fun error herror => nomatch herror⟩
        cases hvalue
        cases outcome with
        | ok _ => exact keeps_settleDelivered hanswer hclaimed hafter
        | error error =>
            dsimp only
            split
            · exact keeps_settleFailed hanswer hclaimed hafter
            · exact keeps_giveUp hanswer hclaimed hafter
  · cases herror

/-- What a worker knows once a change was answered that settles nothing. -/
def Changed (change : Change) (batch : List Row) (outcome : Except MessagingError (Option Row))
    (after : Phase) : Prop :=
  after.batch = batch ∧
    match outcome with
    | .ok (some row) => row.status = change.status ∧ row.deadLettered = change.deadLettered ∧
        after.hold = if change.status = .processing then .claimed row else .nothing
    | _ => after.hold = .nothing

theorem keeps_swap {change : Change} (hturn : shift.Turn phase row change)
    (hidle : phase.Idle batch) :
    Program.Keeps shift.settling (Changed change batch)
      (Custodian.swap change : Attempt κ MessagingError (Option Row)) phase := by
  obtain ⟨hbatch, hnone⟩ := hidle
  have hallows : shift.settling.allows phase (.swap change) := by
    refine ⟨⟨row, hturn⟩, fun other _ => ?_⟩
    rw [hnone]
    trivial
  refine Program.Keeps.calling ⟨hallows, fun answer hlikely => ?_⟩
  refine ⟨(phase.batch_next_swap change answer).trans hbatch, ?_⟩
  match answer with
  | .error error => rfl
  | .ok none => rfl
  | .ok (some found) =>
      obtain ⟨old, _, rfl⟩ := hlikely
      exact ⟨rfl, rfl, rfl⟩

/-- What follows a change that settles nothing. -/
theorem keeps_changed {change : Change} {attempt : Attempt κ MessagingError (Option Row)}
    {rest : Row → TickStep κ Unit}
    (h : Program.Keeps shift.settling (Changed change batch) attempt phase)
    (hrest : ∀ row after, after.batch = batch → row.status = change.status →
      row.deadLettered = change.deadLettered →
      (after.hold = if change.status = .processing then .claimed row else .nothing) →
      Keeps shift batch (rest row) after) :
    Keeps shift batch (TickStep.of attempt >>= fun
      | none => lostClaim
      | some row => rest row) phase := by
  refine TickStep.Keeps.andThen (TickStep.Keeps.of (h.mono fun outcome after hafter => ?_))
  obtain ⟨hbatch, hchanged⟩ := hafter
  match outcome with
  | .error error => exact ⟨fun _ hvalue => (nomatch hvalue), fun _ _ => ⟨hbatch, hchanged⟩⟩
  | .ok none =>
      refine ⟨fun value hvalue => ?_, nofun⟩
      cases hvalue
      exact keeps_lostClaim ⟨hbatch, hchanged⟩
  | .ok (some row) =>
      obtain ⟨hstatus, hdead, hhold⟩ := hchanged
      refine ⟨fun value hvalue => ?_, nofun⟩
      cases hvalue
      exact hrest row after hbatch hstatus hdead hhold

theorem keeps_takeUp (hrow : row ∈ phase.batch) (hdue : shift.query.selects row = true)
    (hcause : ∀ cause, row.causationId = some cause → phase.resolved = some cause)
    (hidle : phase.Idle batch) :
    Keeps shift batch (shift.publisher.takeUp row shift.now) phase := by
  have hlive : row.deadLettered = false := by
    simp only [DueQuery.selects, Bool.and_eq_true, Bool.not_eq_true'] at hdue
    exact hdue.1.1.1
  have hclaim : Program.Keeps shift.settling
      (Changed (shift.publisher.custodian.claimChange row shift.now) batch)
      (shift.publisher.custodian.claimAt row shift.now) phase := by
    refine Custodian.keeps_checked (fun hlook => ?_) fun error => hidle
    exact keeps_swap (.claim hrow hdue hlook hcause) hidle
  refine keeps_changed hclaim fun claimed after hafter hstatus hdead hhold => ?_
  exact keeps_deliver hhold ⟨hstatus, hdead.trans hlive⟩ hafter

theorem keeps_takeOver (hrow : row ∈ phase.batch) (hdue : shift.query.selects row = true)
    (hidle : phase.Idle batch) :
    Keeps shift batch (shift.publisher.takeOver row shift.now) phase := by
  by_cases hlook : Custodian.hasExpired row shift.now = true
  · have hreclaim : shift.publisher.custodian.reclaim row shift.now =
        (Custodian.swap (shift.publisher.custodian.reclaimChange row shift.now) :
          Attempt κ MessagingError (Option Row)) := if_pos hlook
    unfold takeOver
    rw [hreclaim]
    refine keeps_changed (keeps_swap (.takeOver hrow hdue hlook) hidle) ?_
    intro claimed after hafter hstatus hdead hhold
    obtain ⟨hlive, hheld, _⟩ := Custodian.hasExpired_iff.1 hlook
    rcases shift.publisher.custodian.reclaimChange_cases row shift.now with ⟨hle, heq⟩ | ⟨_, heq⟩
    · rw [heq] at hdead hhold
      rw [if_pos (hdead.trans (decide_eq_true hle))]
      exact keeps_becameDeadLetter ⟨hafter, hhold⟩
    · rw [heq] at hstatus hdead hhold
      have hclaimed : claimed.Claimed := ⟨hstatus.trans hheld, hdead.trans hlive⟩
      rw [if_neg (by simp [hclaimed.2])]
      refine TickStep.Keeps.andThen (keeps_record ⟨fun _ _ => ?_, fun _ herror => nomatch herror⟩)
      exact keeps_deliver (hhold.trans (if_pos hheld)) hclaimed hafter
  · unfold takeOver Custodian.reclaim
    rw [if_neg hlook]
    exact fun _ => hidle

theorem keeps_postpone (hrow : row ∈ phase.batch) (hdue : shift.query.selects row = true)
    (hfree : row.status ≠ .processing) (hidle : phase.Idle batch) :
    Keeps shift batch (shift.publisher.postpone row shift.now) phase := by
  have hdefer : Program.Keeps shift.settling
      (Changed (shift.publisher.custodian.deferChange row
        (shift.publisher.nextAttemptAt shift.now (Count.next row.deferrals))) batch)
      (shift.publisher.custodian.defer row
        (shift.publisher.nextAttemptAt shift.now (Count.next row.deferrals))) phase := by
    unfold Custodian.defer
    split
    · exact keeps_swap (.postpone hrow hdue ‹_›) hidle
    · exact hidle
  refine keeps_changed hdefer fun changed after hbatch _ _ hhold => ?_
  have hidle : after.Idle batch := by
    refine ⟨hbatch, hhold.trans (if_neg ?_)⟩
    rcases shift.publisher.custodian.deferChange_cases row (shift.publisher.nextAttemptAt
      shift.now (Count.next row.deferrals)) with ⟨_, heq⟩ | ⟨_, heq⟩
    · rw [heq]
      exact hfree
    · rw [heq]
      exact hfree
  split
  · exact keeps_becameDeadLetter hidle
  · exact keeps_record hidle

theorem keeps_causeResolved (cause : MessageId) :
    Program.Keeps shift.settling
      (fun outcome after => after.batch = phase.batch ∧ after.hold = phase.hold ∧
        (outcome = .ok true → after.resolved = some cause))
      (Custodian.causeResolved cause : Attempt κ MessagingError Bool) phase := by
  refine Program.Keeps.andThen (Program.Keeps.calling ⟨Shift.settling_of_allows trivial rfl, fun answer _ => ?_⟩)
  match answer with
  | .error error => exact ⟨nofun, fun _ _ => ⟨rfl, rfl, nofun⟩⟩
  | .ok statuses =>
      refine ⟨fun value hvalue => ⟨rfl, rfl, fun htrue => ?_⟩, nofun⟩
      cases hvalue
      exact if_pos (Except.ok.inj htrue)

theorem keeps_process (hrow : row ∈ phase.batch) (hdue : shift.query.selects row = true)
    (hidle : phase.Idle batch) :
    Keeps shift batch (shift.publisher.process row shift.now) phase := by
  unfold process
  split
  · exact keeps_takeOver hrow hdue hidle
  · rename_i hfree
    split
    · rename_i hnone
      refine keeps_takeUp hrow hdue (fun cause hcause => ?_) hidle
      rw [hnone] at hcause
      cases hcause
    · rename_i cause hcause
      refine TickStep.Keeps.andThen (TickStep.Keeps.of
        ((keeps_causeResolved cause).mono fun outcome after hafter => ?_))
      obtain ⟨hbatch, hhold, hresolved⟩ := hafter
      have hthere : row ∈ after.batch := by
        rw [hbatch]
        exact hrow
      have hidle : after.Idle batch := ⟨hbatch.trans hidle.1, hhold.trans hidle.2⟩
      refine ⟨fun value hvalue => ?_, fun _ _ => hidle⟩
      split
      · rename_i htrue
        refine keeps_takeUp hthere hdue (fun other hother => ?_) hidle
        obtain rfl := Option.some.inj (hcause.symm.trans hother)
        rw [htrue] at hvalue
        exact hresolved hvalue
      · exact keeps_postpone hthere hdue hfree hidle

/-- Row by row, with the whole batch at hand all the time. -/
theorem keeps_processAll (rows : List Row) (report : TickReport) (hidle : phase.Idle batch)
    (hrows : ∀ row ∈ rows, row ∈ batch) (hdue : ∀ row ∈ batch, shift.query.selects row = true) :
    (shift.publisher.processAll shift.now rows report).Keeps shift.settling
      (fun _ after => after.Idle batch) phase := by
  induction rows generalizing report phase with
  | nil => exact hidle
  | cons row rest ih =>
      obtain ⟨hrow, hrest⟩ := List.forall_mem_cons.1 hrows
      have hthere : row ∈ phase.batch := by
        rw [hidle.1]
        exact hrow
      have hprocess := keeps_process hthere (hdue row hrow) hidle report
      refine Program.Keeps.bind (hprocess.mono fun result after hidle => ?_)
      obtain ⟨outcome, report⟩ := result
      cases outcome with
      | ok value => exact ih report hidle hrest
      | error error => exact ⟨Shift.settling_of_allows trivial rfl, fun _ _ => ih _ hidle hrest⟩

/-- A tick settles each claim that it wins, and ends without one. -/
theorem keeps_settling (shift : Shift κ) :
    Program.Keeps shift.settling (fun _ after => after.hold = .nothing)
      (shift.publisher.tickAt shift.now) Phase.start := by
  refine Program.Keeps.andThen (Program.Keeps.calling
    (Program.Keeps.calling ⟨Shift.settling_of_allows rfl rfl, fun answer hlikely => ?_⟩))
  match answer with
  | .error error => exact ⟨nofun, fun _ _ => rfl⟩
  | .ok rows =>
      refine ⟨fun value hvalue => ?_, nofun⟩
      cases hvalue
      have hall : (shift.publisher.processAll shift.now rows { fetched := rows.length }).Keeps
          shift.settling (fun _ after => after.Idle rows) { Phase.start with batch := rows } :=
        keeps_processAll rows _ ⟨rfl, rfl⟩ (fun row hrow => hrow) hlikely
      refine Program.Keeps.andThen (Program.Keeps.bind (hall.mono fun report after hidle => ?_))
      exact ⟨fun _ _ => ⟨Shift.settling_of_allows trivial rfl, fun _ _ => hidle.2⟩, fun _ _ => hidle.2⟩

theorem keeps_tick (shift : Shift κ) :
    Program.Keeps shift.protocol (fun _ _ => True) (shift.publisher.tickAt shift.now)
      Phase.start := by
  have hsettling : Program.Keeps shift.settling (fun _ _ => True)
      (shift.publisher.tickAt shift.now) Phase.start :=
    (keeps_settling shift).mono fun _ _ _ => trivial
  exact hsettling.weaken rfl fun _ _ hallows => hallows.1

end Publisher

end Courier
