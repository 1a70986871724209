import Courier.Proofs.Publishing.Ticks
import Courier.Proofs.Store.Batches
/-
Publishers at work on one store.  Each tick is a job of its own, its calls come in any order with
those of all others, any call may fail, and no job needs to be given another turn.  A committed row
changes only by a turn of a publisher that relies on what the row is at that very moment.
-/
namespace Courier

variable {κ τ ρ : Type}

/-- Publishers tick, each with settings that it can run with, while others do what they like except
to change rows and to deliver them. -/
def publishing (κ : Type) (eligible : PublisherSettings → Bool) :
    Rules κ (Shift κ) (Except PublisherError TickReport) where
  admits _ shift :=
    shift.publisher.settings.fault?.isNone && eligible shift.publisher.settings
  program shift := shift.publisher.tickAt shift.now
  bystander call := !call.isSwap && !call.isHandOver
  mishap _ _ := true
  clears := false

/-- What settings without a fault promise. -/
theorem PublisherSettings.usable {settings : PublisherSettings} (h : settings.fault? = none) :
    0 < settings.maxRetries ∧ 0 < settings.batchSize ∧ 0 < settings.claimTimeout.nanos ∧
      ¬ settings.backoffCap < settings.backoffBase := by
  unfold fault? at h
  split at h
  · cases h
  · split at h
    · cases h
    · split at h
      · cases h
      · split at h
        · cases h
        · rename_i hretries hbatch htime hcap
          refine ⟨?_, Nat.pos_of_ne_zero hbatch, Nat.pos_of_ne_zero htime, hcap⟩
          rw [UInt32.lt_iff_toNat_lt]
          exact Nat.pos_of_ne_zero fun hzero => hretries (UInt32.toNat_inj.1 hzero)

def phaseOf (number : Nat) : List (Moment κ τ) → Phase
  | [] => Phase.start
  | moment :: past =>
      if moment.isBy number then (phaseOf number past).next moment.call moment.answer
      else phaseOf number past

def held (number : Nat) : List (Moment κ τ) → Option Row
  | [] => none
  | moment :: past =>
      if moment.isBy number && moment.call.isSwap then
        moment.shown.find? (·.status == .processing)
      else held number past

section

variable {number : Nat} {moment : Moment κ τ} {past : List (Moment κ τ)}

@[simp]
theorem phaseOf_cons_by (h : moment.isBy number = true) :
    phaseOf number (moment :: past) = (phaseOf number past).next moment.call moment.answer :=
  if_pos h

@[simp]
theorem phaseOf_cons_other (h : moment.isBy number = false) :
    phaseOf number (moment :: past) = phaseOf number past :=
  if_neg (ne_true_of_eq_false h)

@[simp]
theorem held_cons_other (h : (moment.isBy number && moment.call.isSwap) = false) :
    held number (moment :: past) = held number past :=
  if_neg (ne_true_of_eq_false h)

end

theorem phase_eq_phaseOf {protocol : τ → Protocol κ Phase}
    (hnext : ∀ task, (protocol task).next = Phase.next) (world : World κ τ ρ) (worker : Worker τ) :
    world.phase protocol (fun _ => Phase.start) worker = phaseOf worker.number world.history := by
  unfold World.phase
  induction world.history with
  | nil => rfl
  | cons moment past ih =>
      simp only [Protocol.phase, phaseOf, ih, hnext]

/-- A change brings the row that it is answered with, if that is claimed. -/
theorem Phase.row?_next (phase : Phase) (call : Call κ) (answer : call.Answer) :
    (phase.next call answer).hold.row? =
      if call.isSwap then (call.shown answer).find? (·.status == .processing)
      else phase.hold.row? := by
  have hover : ∀ delivered, (phase.hold.handOver delivered).row? = phase.hold.row? := by
    intro delivered
    cases phase.hold <;> rfl
  cases call with
  | swap change =>
      rcases answer with error | _ | row
      · rfl
      · rfl
      · by_cases hstatus : row.status = .processing
        · simp [Phase.next, Call.isSwap, Call.shown, hstatus, Hold.row?]
        · simp [Phase.next, Call.isSwap, Call.shown, hstatus, Hold.row?]
  | publish key envelope => exact hover _
  | handle command => exact hover _
  | due query =>
      cases answer with
      | error error => rfl
      | ok rows => rfl
  | outgoing id =>
      cases answer with
      | error error => rfl
      | ok statuses => rfl
  | _ => rfl

theorem row?_phaseOf (number : Nat) (history : List (Moment κ τ)) :
    (phaseOf number history).hold.row? = held number history := by
  induction history with
  | nil => rfl
  | cons moment past ih =>
      cases hby : moment.isBy number with
      | true =>
          rw [phaseOf_cons_by hby, Phase.row?_next, ih, held, hby, Bool.true_and]
          rfl
      | false => simp [hby, ih]

theorem Hold.row?_of_undelivered {hold : Hold} {row : Row} (h : hold.undelivered? = some row) :
    hold.row? = some row := by
  cases hold with
  | nothing => cases h
  | claimed claimed => exact h
  | handed claimed delivered =>
      cases delivered with
      | false => exact h
      | true => cases h

namespace Shift.Turn

variable {shift : Shift κ} {phase : Phase} {row : Row} {change : Change}

theorem permits (h : shift.Turn phase row change) :
    shift.publisher.custodian.Permits row change := by
  cases h with
  | claim hrow hdue hlook hcause => exact .claim _ hlook
  | takeOver hrow hdue hlook => exact .reclaim _ hlook
  | postpone hrow hdue hlook => exact .postpone _ hlook
  | succeed clock hhold hlook => exact .processed _ hlook
  | fail reason clock hhold hlook => exact .failure _ _ _ hlook
  | giveUp reason clock hhold hlook => exact .malformed _ _ hlook

theorem lawful (h : shift.Turn phase row change) : Lawful row change :=
  h.permits.lawful

theorem known (h : shift.Turn phase row change) : row ∈ phase.known := by
  have hheld : phase.hold.row? = some row → row ∈ phase.known := fun hrow =>
    List.mem_append_right _ (Option.mem_toList.2 hrow)
  cases h with
  | claim hrow hdue hlook hcause => exact List.mem_append_left _ hrow
  | takeOver hrow hdue hlook => exact List.mem_append_left _ hrow
  | postpone hrow hdue hlook => exact List.mem_append_left _ hrow
  | succeed clock hhold hlook =>
      apply hheld
      rw [hhold]
      rfl
  | fail reason clock hhold hlook => exact hheld (Hold.row?_of_undelivered hhold)
  | giveUp reason clock hhold hlook => exact hheld (Hold.row?_of_undelivered hhold)

end Shift.Turn

inductive Shift.Outcome (shift : Shift κ) (phase : Phase) (row after : Row) : Prop where
  | claimed (hlive : row.deadLettered = false) (hfree : row.status = .stored ∨ row.status = .failed)
      (hroom : row.status = .failed → row.retries < shift.publisher.settings.maxRetries)
      (hdue : row.nextAttemptAt ≤ shift.now) (hbatch : row ∈ phase.batch)
      (hcause : ∀ cause, row.causationId = some cause → phase.resolved = some cause)
      (hstatus : after.status = .processing) (hretries : after.retries = row.retries)
      (hdeadline : after.nextAttemptAt = shift.now.after shift.publisher.settings.claimTimeout)
  | takenOver (hheld : row.status = .processing) (hdue : row.nextAttemptAt ≤ shift.now)
      (hstatus : after.status = .processing) (hretries : row.retries < after.retries)
      (hroom : after.retries < shift.publisher.settings.maxRetries)
      (hdeadline : after.nextAttemptAt = shift.now.after shift.publisher.settings.claimTimeout)
  | postponed (hfree : row.status = .stored ∨ row.status = .failed)
      (hdue : row.nextAttemptAt ≤ shift.now) (hstatus : after.status = row.status)
      (hlive : row.deadLettered = false) (hretries : after.retries = row.retries)
      (hnext : after.nextAttemptAt = shift.publisher.nextAttemptAt shift.now after.deferrals)
  | succeeded (hheld : row.status = .processing) (hhold : phase.hold = .handed row true)
      (hstatus : after.status = .processed)
  | failed (hheld : row.status = .processing) (hhold : phase.hold.row? = some row)
      (hstatus : after.status = .failed) (hlive : after.deadLettered = false)
      (hretries : row.retries < after.retries)
      (hnext : after.nextAttemptAt = shift.publisher.nextAttemptAt shift.now after.retries)
  | ended (hheld : row.status = .processing) (hstatus : after.status = .failed)
      (hdead : after.deadLettered = true)

theorem Shift.Turn.outcome {shift : Shift κ} {phase : Phase} {row : Row} {change : Change}
    (h : shift.Turn phase row change) : shift.Outcome phase row (row.apply change) := by
  cases h with
  | claim hrow hdue hlook hcause =>
      obtain ⟨hedge, hlive, hroom⟩ := Row.refusal?_eq_none_iff.1 hlook
      have hfree : row.status = .stored ∨ row.status = .failed := by
        cases hstatus : row.status with
        | stored => exact Or.inl rfl
        | failed => exact Or.inr rfl
        | processing =>
            rw [hstatus] at hedge
            cases hedge
        | processed =>
            rw [hstatus] at hedge
            cases hedge
      exact .claimed hlive hfree hroom (DueQuery.le_of_selects hdue) hrow hcause rfl rfl rfl
  | takeOver hrow hdue hlook =>
      obtain ⟨_, hheld, hexpired⟩ := Custodian.hasExpired_iff.1 hlook
      rcases shift.publisher.custodian.reclaimChange_cases row shift.now with ⟨hle, heq⟩ | ⟨hlt, heq⟩
      · rw [heq]
        exact .ended hheld rfl (decide_eq_true hle)
      · rw [heq]
        exact .takenOver hheld hexpired hheld (Count.lt_next (Count.lt_of_next_lt hlt)) hlt rfl
  | postpone hrow hdue hlook =>
      obtain ⟨hlive, hfree⟩ := Custodian.mayDefer_iff.1 hlook
      rcases shift.publisher.custodian.deferChange_cases row (shift.publisher.nextAttemptAt
        shift.now (Count.next row.deferrals)) with ⟨_, heq⟩ | ⟨_, heq⟩
      · rw [heq]
        exact .postponed hfree (DueQuery.le_of_selects hdue) rfl hlive rfl rfl
      · rw [heq]
        exact .postponed hfree (DueQuery.le_of_selects hdue) rfl hlive rfl rfl
  | succeed clock hhold hlook =>
      have hheld := Lawful.status_of_leaves (Row.refusal?_eq_none_iff.1 hlook).1 (by decide)
      exact .succeeded hheld hhold rfl
  | fail reason clock hhold hlook =>
      have hheld := Lawful.status_of_leaves (Row.refusal?_eq_none_iff.1 hlook).1 (by decide)
      by_cases hle : shift.publisher.custodian.maxRetries ≤ Count.next row.retries
      · exact .ended hheld rfl (decide_eq_true hle)
      · have hlt := Count.lt_of_next_lt (UInt32.not_le.1 hle)
        exact .failed hheld (Hold.row?_of_undelivered hhold) rfl (decide_eq_false hle)
          (Count.lt_next hlt) rfl
  | giveUp reason clock hhold hlook =>
      have hheld := Lawful.status_of_leaves (Row.refusal?_eq_none_iff.1 hlook).1 (by decide)
      exact .ended hheld rfl rfl

/-- Only a claim and a takeover leave a row processing. -/
theorem Shift.Outcome.of_processing {shift : Shift κ} {phase : Phase} {row after : Row}
    (h : shift.Outcome phase row after) (hprocessing : after.status = .processing) :
    row.nextAttemptAt ≤ shift.now ∧
      after.nextAttemptAt = shift.now.after shift.publisher.settings.claimTimeout := by
  cases h with
  | claimed _ _ _ hdue _ _ _ _ hdeadline => exact ⟨hdue, hdeadline⟩
  | takenOver _ hdue _ _ _ hdeadline => exact ⟨hdue, hdeadline⟩
  | postponed hfree _ hstatus =>
      rw [hstatus] at hprocessing
      simp [hprocessing] at hfree
  | succeeded _ _ hstatus => simp [hstatus] at hprocessing
  | failed _ _ hstatus => simp [hstatus] at hprocessing
  | ended _ hstatus => simp [hstatus] at hprocessing

/-- Only what was taken over becomes processed. -/
theorem Shift.Outcome.of_processed {shift : Shift κ} {phase : Phase} {row after : Row}
    (h : shift.Outcome phase row after) (hprocessed : after.status = .processed) :
    phase.hold = .handed row true := by
  cases h with
  | claimed _ _ _ _ _ _ hstatus => simp [hstatus] at hprocessed
  | takenOver _ _ hstatus => simp [hstatus] at hprocessed
  | postponed hfree _ hstatus =>
      rw [hstatus] at hprocessed
      simp [hprocessed] at hfree
  | succeeded _ hhold => exact hhold
  | failed _ _ hstatus => simp [hstatus] at hprocessed
  | ended _ hstatus => simp [hstatus] at hprocessed

theorem Phase.batch_next (phase : Phase) (call : Call κ) (answer : call.Answer) {row : Row}
    (hrow : row ∈ (phase.next call answer).batch) :
    (∃ query, call = .due query) ∧ row ∈ call.shown answer ∨ row ∈ phase.batch := by
  cases call with
  | due query =>
      cases answer with
      | error error => exact Or.inr hrow
      | ok rows => exact Or.inl ⟨⟨query, rfl⟩, hrow⟩
  | outgoing id =>
      cases answer with
      | error error => exact Or.inr hrow
      | ok statuses => exact Or.inr hrow
  | swap change =>
      rw [phase.batch_next_swap] at hrow
      exact Or.inr hrow
  | _ => exact Or.inr hrow

theorem Phase.known_next (phase : Phase) (call : Call κ) (answer : call.Answer) {row : Row}
    (hrow : row ∈ (phase.next call answer).known) :
    row ∈ call.shown answer ∨ row ∈ phase.known := by
  rcases List.mem_append.1 hrow with hbatch | hheld
  · exact (phase.batch_next call answer hbatch).imp And.right (List.mem_append_left _)
  · rw [Option.mem_toList, phase.row?_next call answer] at hheld
    split at hheld
    · exact Or.inl (List.mem_of_find?_eq_some hheld)
    · exact Or.inr (List.mem_append_right _ (Option.mem_toList.2 hheld))

/-- What a job knows was handed out. -/
theorem known_phaseOf (number : Nat) (history : List (Moment κ τ)) {row : Row}
    (hrow : row ∈ (phaseOf number history).known) : row ∈ history.flatMap Moment.shown := by
  induction history with
  | nil => cases hrow
  | cons moment past ih =>
      simp only [phaseOf] at hrow
      rw [List.flatMap_cons, List.mem_append]
      split at hrow
      · exact ((phaseOf number past).known_next _ _ hrow).imp id ih
      · exact Or.inr (ih hrow)

theorem held_shown {number : Nat} {history : List (Moment κ τ)} {row : Row}
    (h : held number history = some row) : row ∈ history.flatMap Moment.shown := by
  rw [← row?_phaseOf] at h
  exact known_phaseOf number history (List.mem_append_right _ (Option.mem_toList.2 h))

theorem held_of_hold {number : Nat} {history : List (Moment κ τ)} {row : Row}
    (h : (phaseOf number history).hold = .claimed row) : held number history = some row := by
  rw [← row?_phaseOf, h]
  rfl

theorem held_cons {number : Nat} {moment : Moment κ τ} {past : List (Moment κ τ)} {row : Row}
    (h : held number (moment :: past) = some row) :
    (moment.isBy number = true ∧ moment.call.isSwap = true ∧ row ∈ moment.shown ∧
      row.status = .processing) ∨
    held number past = some row ∧ ¬ (moment.isBy number = true ∧ moment.call.isSwap = true) := by
  simp only [held] at h
  split at h
  · rename_i hswap
    obtain ⟨hby, hswap⟩ := Bool.and_eq_true_iff.1 hswap
    have hstatus := List.find?_some h
    exact Or.inl ⟨hby, hswap, List.mem_of_find?_eq_some h, by simpa using hstatus⟩
  · rename_i hother
    exact Or.inr ⟨h, fun hboth => hother (Bool.and_eq_true_iff.2 hboth)⟩

/-- What a job may call that is no tick: it neither changes rows nor delivers them. -/
def Shift.aside : Protocol κ Phase where
  allows _ call := call.isSwap = false ∧ call.isHandOver = false
  next := Phase.next

/-- The protocol of a job that may be a tick. -/
def Shift.protocolOf : Option (Shift κ) → Protocol κ Phase
  | some shift => shift.protocol
  | none => aside

theorem Shift.next_protocolOf (shift? : Option (Shift κ)) : (protocolOf shift?).next = Phase.next := by
  cases shift? <;> rfl

/-- Some of the jobs are ticks of publishers, and nothing else changes rows or delivers them. -/
structure Rules.Publishes (rules : Rules κ τ ρ) (shift? : τ → Option (Shift κ)) : Prop where
  follows : rules.Follows (fun task => Shift.protocolOf (shift? task)) fun _ => Phase.start
  bystander : ∀ call, rules.bystander call = true → call.isSwap = false ∧ call.isHandOver = false
  lasting : rules.clears = false

namespace Rules.Publishes

variable {rules : Rules κ τ ρ} {shift? : τ → Option (Shift κ)} {earlier : List (Action κ τ)}
  {moment : Moment κ τ}

/-- Whoever changes a row or delivers one is a tick, and may do so. -/
theorem allows (h : rules.Publishes shift?) (hmakes : rules.Makes (rules.world earlier) moment)
    (hcall : moment.call.isSwap = true ∨ moment.call.isHandOver = true) :
    ∃ worker shift, moment.worker = some worker ∧ shift? worker.task = some shift ∧
      shift.allows (phaseOf worker.number (rules.world earlier).history) moment.call := by
  have hnobody : ¬ (moment.call.isSwap = false ∧ moment.call.isHandOver = false) := by
    rintro ⟨hswap, hover⟩
    simp [hswap, hover] at hcall
  cases hworker : moment.worker with
  | none => exact absurd (h.bystander _ (hmakes.bystander hworker)) hnobody
  | some worker =>
      have hallows := hmakes.allows h.follows hworker
      rw [phase_eq_phaseOf fun task => Shift.next_protocolOf (shift? task)] at hallows
      cases hshift : shift? worker.task with
      | none =>
          simp only [hshift] at hallows
          exact absurd hallows hnobody
      | some shift =>
          simp only [hshift] at hallows
          exact ⟨worker, shift, rfl, hshift, hallows⟩

/-- A change that finds its row is a turn of a tick that has looked at that very row. -/
theorem turn (h : rules.Publishes shift?) (hmakes : rules.Makes (rules.world earlier) moment)
    {change : Change} (hcall : moment.call = .swap change) {row : Row}
    (hrow : row ∈ (rules.world earlier).store.rows) (hfits : change.fits row = true) :
    ∃ worker shift, moment.worker = some worker ∧ shift? worker.task = some shift ∧
      shift.Turn (phaseOf worker.number (rules.world earlier).history) row change := by
  obtain ⟨worker, shift, hworker, hshift, hallows⟩ := h.allows hmakes (Or.inl (by rw [hcall]; rfl))
  rw [hcall] at hallows
  obtain ⟨seen, hturn⟩ := hallows
  have hseen : seen ∈ (rules.world earlier).handedOut := known_phaseOf worker.number _ hturn.known
  have hsame : seen = row := (World.sound _ earlier).eq_of_fits hturn.lawful hseen hrow hfits
  subst hsame
  exact ⟨worker, shift, hworker, hshift, hturn⟩

/-- What is handed over is a claim that the worker has won and not handed over before. -/
theorem hands_over (h : rules.Publishes shift?) (hmakes : rules.Makes (rules.world earlier) moment)
    (hover : moment.call.isHandOver = true) :
    ∃ worker shift claimed, moment.worker = some worker ∧ shift? worker.task = some shift ∧
      (phaseOf worker.number (rules.world earlier).history).hold = .claimed claimed ∧
      shift.HandsOver claimed moment.call := by
  obtain ⟨worker, shift, hworker, hshift, hallows⟩ := h.allows hmakes (Or.inr hover)
  generalize moment.call = call at hover hallows
  cases call with
  | publish key envelope =>
      obtain ⟨claimed, hhold, hhands⟩ := hallows
      exact ⟨worker, shift, claimed, hworker, hshift, hhold, hhands⟩
  | handle command =>
      obtain ⟨claimed, hhold, hhands⟩ := hallows
      exact ⟨worker, shift, claimed, hworker, hshift, hhold, hhands⟩
  | _ => cases hover

end Rules.Publishes

section rules

variable {eligible : PublisherSettings → Bool}

theorem publishing_follows :
    (publishing κ eligible).Follows Shift.protocol fun _ => Phase.start :=
  Publisher.keeps_tick

/-- Publishers alone at work are publishers at work. -/
theorem publishing_publishes : (publishing κ eligible).Publishes some where
  follows := publishing_follows
  bystander call hcall := by
    obtain ⟨hswap, hover⟩ := Bool.and_eq_true_iff.1 hcall
    exact ⟨by simpa using hswap, by simpa using hover⟩
  lasting := rfl

theorem publishing_settling :
    (publishing κ eligible).FollowsTo Shift.settling (fun _ _ phase => phase.hold = .nothing)
      fun _ => Phase.start :=
  Publisher.keeps_settling

theorem publishing_orderly : (publishing κ eligible).Orderly := by
  refine Rules.orderly_of_follows Shift.protocol (fun _ => Phase.start) publishing_follows
    Phase.known ?_ ?_ ?_ ?_ rfl
  · intro shift phase change hallows
    obtain ⟨row, hturn⟩ := hallows
    exact ⟨row, hturn.known, hturn.lawful⟩
  · intro shift phase call answer row hrow
    exact phase.known_next call answer hrow
  · intro handed shift hadmits row hrow
    cases hrow
  · intro change
    rfl

variable {earlier : List (Action κ (Shift κ))} {moment : Moment κ (Shift κ)}

/-- Whoever calls was started with settings that a publisher can run with. -/
theorem publishing_eligible
    (hmakes : (publishing κ eligible).Makes ((publishing κ eligible).world earlier) moment)
    {worker : Worker (Shift κ)} (hworker : moment.worker = some worker) :
    worker.task.publisher.settings.fault? = none ∧
      eligible worker.task.publisher.settings = true := by
  obtain ⟨next, hjob⟩ := hmakes.worker worker hworker
  have hadmits : ∀ handed shift, (publishing κ eligible).admits handed shift = true →
      shift.publisher.settings.fault? = none ∧ eligible shift.publisher.settings = true := by
    intro handed shift h
    simpa [publishing] using h
  exact Rules.admitted (fun _ (shift : Shift κ) => shift.publisher.settings.fault? = none ∧
    eligible shift.publisher.settings = true) hadmits (fun _ _ _ h => h) earlier
    (List.mem_of_getElem? hjob)

/-- Whoever has a claim at hand settles it before he makes any other change. -/
theorem publishing_settles
    (hmakes : (publishing κ eligible).Makes ((publishing κ eligible).world earlier) moment)
    {worker : Worker (Shift κ)} (hworker : moment.worker = some worker) {change : Change}
    (hcall : moment.call = .swap change) :
    (phaseOf worker.number ((publishing κ eligible).world earlier).history).hold.SettledBy
      change := by
  have hallows := hmakes.allows publishing_settling hworker
  rw [phase_eq_phaseOf fun _ => rfl] at hallows
  exact hallows.2 change hcall

/-- A change that finds its row is a turn of a worker that has looked at that very row. -/
theorem publishing_turn
    (hmakes : (publishing κ eligible).Makes ((publishing κ eligible).world earlier) moment)
    {change : Change} (hcall : moment.call = .swap change) {row : Row}
    (hrow : row ∈ ((publishing κ eligible).world earlier).store.rows)
    (hfits : change.fits row = true) :
    ∃ worker, moment.worker = some worker ∧ worker.task.Turn
      (phaseOf worker.number ((publishing κ eligible).world earlier).history) row change := by
  obtain ⟨worker, shift, hworker, hshift, hturn⟩ :=
    publishing_publishes.turn hmakes hcall hrow hfits
  obtain rfl := Option.some.inj hshift
  exact ⟨worker, hworker, hturn⟩

/-- A committed row stays, or a worker turns it, and what the worker relies on holds of the row as it
is at that moment. -/
theorem publishing_turns
    (hmakes : (publishing κ eligible).Makes ((publishing κ eligible).world earlier) moment)
    {id : RowId} {row : Row}
    (hrow : ((publishing κ eligible).world earlier).store.get? id = some row) :
    ∃ after, moment.after.get? id = some after ∧ (after = row ∨
      row.SameMessage after ∧ after.version = row.version + 1 ∧ moment.call.isSwap = true ∧
        ∃ worker, moment.worker = some worker ∧ worker.task.Outcome
          (phaseOf worker.number ((publishing κ eligible).world earlier).history) row after) := by
  obtain ⟨after, hafter, heq | ⟨change, hcall, hfits, heq⟩⟩ := World.get?_after hmakes hrow
  · exact ⟨after, hafter, Or.inl heq⟩
  · refine ⟨after, hafter, Or.inr ?_⟩
    obtain ⟨worker, hworker, hturn⟩ :=
      publishing_turn hmakes hcall (Store.mem_of_get? hrow).1 hfits
    rw [heq, hcall]
    exact ⟨row.sameMessage_apply change, rfl, rfl, worker, hworker, hturn.outcome⟩

end rules

end Courier
