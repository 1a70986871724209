import Courier.Custody.Staging
import Courier.Proofs.Publishing.Shifts
import Courier.Proofs.Time.Order
/-
Claims.  A call that changes a row and leaves it processing makes a claim of it.  Whoever holds a
claim has made it, nobody else holds the same one, and nothing but a claim is handed over.
-/
namespace Courier

variable {κ τ : Type}

def Moment.claim? (moment : Moment κ τ) (id : RowId) : Option Row :=
  if moment.after.get? id = moment.before.get? id then none
  else (moment.after.get? id).filter (·.status == .processing)

theorem Moment.of_claim? {moment : Moment κ τ} {id : RowId} {claimed : Row}
    (h : moment.claim? id = some claimed) :
    moment.after.get? id = some claimed ∧ claimed.status = .processing := by
  unfold claim? at h
  split at h
  · cases h
  · obtain ⟨hafter, hstatus⟩ := Option.filter_eq_some_iff.1 h
    exact ⟨hafter, by simpa using hstatus⟩

/-- A row that was changed is claimed if it is processing now. -/
theorem Moment.claim?_of_change {moment : Moment κ τ} {id : RowId} {row after : Row}
    (hbefore : moment.before.get? id = some row) (hafter : moment.after.get? id = some after)
    (hversion : after.version = row.version + 1) :
    moment.claim? id = if after.status = .processing then some after else none := by
  have hne : moment.after.get? id ≠ moment.before.get? id := by
    rw [hbefore, hafter]
    intro heq
    rw [Option.some.inj heq] at hversion
    omega
  unfold claim?
  rw [if_neg hne, hafter]
  by_cases hstatus : after.status = .processing
  · simp [hstatus]
  · simp [hstatus]

theorem Moment.claim?_of_same {moment : Moment κ τ} {id : RowId}
    (h : moment.after.get? id = moment.before.get? id) : moment.claim? id = none :=
  if_pos h

section rules

variable {eligible : PublisherSettings → Bool} {earlier : List (Action κ (Shift κ))}
  {moment : Moment κ (Shift κ)}

/-- What becomes of the row with a number when a call is made: there is none, it is committed, it
stays, or a worker turns it. -/
inductive Fate (store : Store) (past : List (Moment κ (Shift κ))) (moment : Moment κ (Shift κ))
    (id : RowId) : Prop where
  | absent (hbefore : store.get? id = none) (hafter : moment.after.get? id = none)
      (hclaim : moment.claim? id = none)
  | committed (draft : Draft) (now : Instant) (hbefore : store.get? id = none)
      (hafter : moment.after.get? id = some (Row.fresh id draft now))
      (hclaim : moment.claim? id = none)
  | kept (row : Row) (hbefore : store.get? id = some row) (hafter : moment.after.get? id = some row)
      (hclaim : moment.claim? id = none)
  | turned (row after : Row) (worker : Worker (Shift κ)) (hbefore : store.get? id = some row)
      (hafter : moment.after.get? id = some after) (hsame : row.SameMessage after)
      (hversion : after.version = row.version + 1) (hworker : moment.worker = some worker)
      (houtcome : worker.task.Outcome (phaseOf worker.number past) row after)
      (hclaim : moment.claim? id = if after.status = .processing then some after else none)

theorem publishing_fate
    (hmakes : (publishing κ eligible).Makes ((publishing κ eligible).world earlier) moment)
    (id : RowId) :
    Fate ((publishing κ eligible).world earlier).store
      ((publishing κ eligible).world earlier).history moment id := by
  have hbefore : moment.before.get? id = ((publishing κ eligible).world earlier).store.get? id := by
    rw [hmakes.before]
  cases hrow : ((publishing κ eligible).world earlier).store.get? id with
  | none =>
      rw [hrow] at hbefore
      cases hafter : moment.after.get? id with
      | none => exact .absent hrow hafter (Moment.claim?_of_same (hafter.trans hbefore.symm))
      | some row =>
          obtain ⟨draft, now, rfl⟩ := World.get?_new rfl hmakes hrow hafter
          refine .committed draft now hrow hafter ?_
          simp [Moment.claim?, hafter, hbefore, Row.fresh]
  | some row =>
      rw [hrow] at hbefore
      obtain ⟨after, hafter, heq | ⟨hsame, hversion, _, worker, hworker, houtcome⟩⟩ :=
        publishing_turns hmakes hrow
      · rw [heq] at hafter
        exact .kept row hrow hafter (Moment.claim?_of_same (hafter.trans hbefore.symm))
      · exact .turned row after worker hrow hafter hsame hversion hworker houtcome
          (Moment.claim?_of_change hbefore hafter hversion)

/-- A claim is made by a worker, of a row whose time has come. -/
theorem publishing_claims
    (hmakes : (publishing κ eligible).Makes ((publishing κ eligible).world earlier) moment)
    {id : RowId} {claimed : Row} (hclaim : moment.claim? id = some claimed) :
    ∃ worker row, moment.worker = some worker ∧
      ((publishing κ eligible).world earlier).store.get? id = some row ∧
      worker.task.Outcome (phaseOf worker.number ((publishing κ eligible).world earlier).history) row
        claimed ∧
      row.nextAttemptAt ≤ worker.task.now ∧
      claimed.nextAttemptAt =
        worker.task.now.after worker.task.publisher.settings.claimTimeout := by
  obtain ⟨hafter, hstatus⟩ := Moment.of_claim? hclaim
  cases publishing_fate hmakes id with
  | absent _ _ hnone =>
      rw [hclaim] at hnone
      cases hnone
  | committed _ _ _ _ hnone =>
      rw [hclaim] at hnone
      cases hnone
  | kept _ _ _ hnone =>
      rw [hclaim] at hnone
      cases hnone
  | turned row after worker hbefore hsame _ _ hworker houtcome _ =>
      obtain rfl := Option.some.inj (hafter.symm.trans hsame)
      exact ⟨worker, row, hworker, hbefore, houtcome, houtcome.of_processing hstatus⟩

/-- What a worker is shown by a change that leaves a row processing is a claim. -/
theorem claim?_of_shown
    (hmakes : (publishing κ eligible).Makes ((publishing κ eligible).world earlier) moment)
    (hswap : moment.call.isSwap = true) {row : Row} (hshown : row ∈ moment.shown)
    (hstatus : row.status = .processing) : moment.claim? row.id = some row := by
  obtain ⟨⟨old, change, hbefore, heq⟩, hafter, _⟩ := World.get?_of_shown hmakes hswap hshown
  rw [← hmakes.before] at hbefore
  have hversion : row.version = old.version + 1 := by rw [heq]; rfl
  rw [Moment.claim?_of_change hbefore hafter hversion, if_pos hstatus]

/-- What is handed over is a claim that the worker has won and not handed over before. -/
theorem publishing_hands_over
    (hmakes : (publishing κ eligible).Makes ((publishing κ eligible).world earlier) moment)
    (hover : moment.call.isHandOver = true) :
    ∃ worker claimed, moment.worker = some worker ∧
      (phaseOf worker.number ((publishing κ eligible).world earlier).history).hold =
        .claimed claimed ∧
      worker.task.HandsOver claimed moment.call := by
  obtain ⟨worker, shift, claimed, hworker, hshift, hhold, hhands⟩ :=
    publishing_publishes.hands_over hmakes hover
  obtain rfl := Option.some.inj hshift
  exact ⟨worker, claimed, hworker, hhold, hhands⟩

/-- Who holds a claim has made it, and nobody else holds the same one. -/
structure Holders (history : List (Moment κ (Shift κ))) : Prop where
  won : ∀ number row, held number history = some row →
    ∃ moment ∈ history, ∃ worker, moment.worker = some worker ∧ worker.number = number ∧
      moment.claim? row.id = some row ∧ row.nextAttemptAt =
        worker.task.now.after worker.task.publisher.settings.claimTimeout
  alone : ∀ a b row, held a history = some row → held b history = some row → a = b

theorem publishing_holders (actions : List (Action κ (Shift κ))) :
    Holders ((publishing κ eligible).world actions).history := by
  refine Rules.call_induction rfl (fun _ _ history => Holders history) ?_ ?_ actions
  · constructor
    · intro number row h
      cases h
    · intro a b row h
      cases h
  · intro earlier moment ih hmakes
    constructor
    · intro number row h
      rcases held_cons h with ⟨hby, hswap, hshown, hstatus⟩ | ⟨hold, _⟩
      · have hclaim := claim?_of_shown hmakes hswap hshown hstatus
        obtain ⟨worker, _, hworker, _, _, _, hdeadline⟩ := publishing_claims hmakes hclaim
        obtain ⟨same, hsame, hnumber⟩ := Moment.isBy_iff.1 hby
        obtain rfl := Option.some.inj (hworker.symm.trans hsame)
        exact ⟨moment, List.mem_cons_self .., worker, hworker, hnumber, hclaim, hdeadline⟩
      · obtain ⟨winning, hmem, hwon⟩ := ih.won number row hold
        exact ⟨winning, List.mem_cons_of_mem _ hmem, hwon⟩
    · intro a b row ha hb
      rcases held_cons ha with ⟨hbya, hswap, hshown, _⟩ | ⟨holda, _⟩
      · rcases held_cons hb with ⟨hbyb, _, _, _⟩ | ⟨holdb, _⟩
        · obtain ⟨worker, hworker, rfl⟩ := Moment.isBy_iff.1 hbya
          obtain ⟨other, hother, rfl⟩ := Moment.isBy_iff.1 hbyb
          rw [Option.some.inj (hworker.symm.trans hother)]
        · exact absurd (held_shown holdb) (World.get?_of_shown hmakes hswap hshown).2.2
      · rcases held_cons hb with ⟨_, hswap, hshown, _⟩ | ⟨holdb, _⟩
        · exact absurd (held_shown holda) (World.get?_of_shown hmakes hswap hshown).2.2
        · exact ih.alone a b row holda holdb

/-- Whoever holds a claim has made it. -/
theorem won_by_holder
    (hmakes : (publishing κ eligible).Makes ((publishing κ eligible).world earlier) moment)
    {one : Moment κ (Shift κ)} (hone : one ∈ moment :: ((publishing κ eligible).world earlier).history)
    {worker : Worker (Shift κ)} (hworker : one.worker = some worker) {row : Row}
    (hheld : held worker.number ((publishing κ eligible).world earlier).history = some row) :
    ∃ made ∈ ((publishing κ eligible).world earlier).history, made.worker = some worker ∧
      made.claim? row.id = some row := by
  obtain ⟨made, hmade, maker, hmaker, hnumber, hclaim, _⟩ :=
    (publishing_holders earlier).won worker.number row hheld
  obtain rfl := World.worker_unique publishing_follows hmakes (List.mem_cons_of_mem _ hmade) hone
    hmaker hworker hnumber
  exact ⟨made, hmade, hmaker, hclaim⟩

/-- A claim that somebody holds is made by this call, or it was held before. -/
theorem claimed_or_held
    (hmakes : (publishing κ eligible).Makes ((publishing κ eligible).world earlier) moment)
    {one : Moment κ (Shift κ)} (hone : one ∈ moment :: ((publishing κ eligible).world earlier).history)
    {worker : Worker (Shift κ)} (hworker : one.worker = some worker) {row : Row}
    (hheld : held worker.number (moment :: ((publishing κ eligible).world earlier).history) =
      some row) :
    moment.worker = some worker ∧ moment.claim? row.id = some row ∨
      held worker.number ((publishing κ eligible).world earlier).history = some row := by
  rcases held_cons hheld with ⟨hby, hswap, hshown, hstatus⟩ | ⟨hold, _⟩
  · obtain ⟨caller, hcaller, hnumber⟩ := Moment.isBy_iff.1 hby
    obtain rfl := World.worker_unique publishing_follows hmakes (List.mem_cons_self ..) hone hcaller
      hworker hnumber
    exact Or.inl ⟨hcaller, claim?_of_shown hmakes hswap hshown hstatus⟩
  · exact Or.inr hold

end rules

/-- An outgoing parcel, perhaps sent because of another message. -/
def parcel (number : Nat) (cause : Option MessageId) : Draft :=
  Staging.draftOf
    ⟨.null, Metadata.fresh ⟨Uuid.ofNat number⟩ epoch "Parcel" ⟨⟨Uuid.nil⟩, cause⟩⟩ "Parcel" .outbox

def posted (number : Int) (draft : Draft) : List (Action Unit (Shift Unit)) :=
  [.call (.commit ⟨[Row.fresh ⟨number⟩ draft epoch], []⟩) { clock := epoch },
    .call (.stage Transaction.empty draft) { clock := epoch },
    .call .begin { clock := epoch }]

/-- A publisher that tries everything twice ticks for so many calls, while the bus answers the
same each time. -/
def ticking (now : Instant) (worker calls : Nat) (published : Except BusError Unit) :
    List (Action Unit (Shift Unit)) :=
  List.replicate calls (.work worker { clock := now, published := published }) ++
    [.start ⟨⟨⟨Registry.empty, Table.empty⟩, { maxRetries := 2 }⟩, now⟩]

end Courier
