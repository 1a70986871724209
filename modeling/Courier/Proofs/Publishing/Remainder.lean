import Courier.Proofs.Publishing.Claims
/-
Rows that are not done.  Each is a dead letter that operators find, or the publisher that runs now
takes it up once its time has come, unless the row was tried as often as that publisher tries
anything.  Only a publisher that tries more often can have left such a row behind.
-/
namespace Courier

variable {κ : Type}

/-- A row that may be tried again was left below the ceiling of some publisher. -/
structure Row.Retriable (ceilings : List Count) (row : Row) : Prop where
  untried : row.status = .stored → row.retries = 0
  room : row.deadLettered = false → row.status = .failed ∨ row.status = .processing →
    ∃ ceiling ∈ ceilings, row.retries < ceiling

namespace Row.Retriable

variable {ceilings : List Count} {row : Row}

theorem fresh (id : RowId) (draft : Draft) (now : Instant) :
    (Row.fresh id draft now).Retriable ceilings :=
  ⟨fun _ => rfl, by simp [Row.fresh]⟩

theorem mono {more : List Count} (h : row.Retriable ceilings) (hmore : ceilings ⊆ more) :
    row.Retriable more where
  untried := h.untried
  room hlive hstatus := by
    obtain ⟨ceiling, hthere, hlt⟩ := h.room hlive hstatus
    exact ⟨ceiling, hmore hthere, hlt⟩

/-- A failed row is a dead letter, or it is below the ceiling of the one that failed it. -/
theorem of_failed {maxRetries : Count} (hthere : maxRetries ∈ ceilings) (hstatus : row.status = .failed)
    (hlive : row.deadLettered = false → row.retries < maxRetries) : row.Retriable ceilings where
  untried := by simp [hstatus]
  room h _ := ⟨maxRetries, hthere, hlive h⟩

/-- The changes of a custodian leave a row below its ceiling or as it was. -/
theorem change {custodian : Custodian} {change : Change} (h : row.Retriable ceilings)
    (hpermits : custodian.Permits row change) (hmax : 0 < custodian.maxRetries)
    (hthere : custodian.maxRetries ∈ ceilings) : (row.apply change).Retriable ceilings := by
  have hfailed : ∀ reason now next, (row.apply
      { custodian.failureChange row reason now with nextAttemptAt := next }).Retriable ceilings := by
    intro reason now next
    refine of_failed hthere rfl fun hlive => ?_
    exact UInt32.not_le.1 (of_decide_eq_false hlive)
  cases hpermits with
  | claim now hlook =>
      obtain ⟨hedge, _, hroom⟩ := Row.refusal?_eq_none_iff.1 hlook
      refine ⟨by simp [Row.apply, Custodian.claimChange], fun _ _ => ⟨_, hthere, ?_⟩⟩
      change row.retries < custodian.maxRetries
      cases hstatus : row.status with
      | stored => exact h.untried hstatus ▸ hmax
      | failed => exact hroom hstatus
      | processing => simp [hstatus, Status.leadsTo] at hedge
      | processed => simp [hstatus, Status.leadsTo] at hedge
  | processed now hlook =>
      exact ⟨by simp [Row.apply, Custodian.processedChange],
        by simp [Row.apply, Custodian.processedChange]⟩
  | failure reason now next hlook => exact hfailed reason now next
  | malformed reason now hlook =>
      exact of_failed hthere rfl (by simp [Row.apply, Custodian.malformedChange])
  | reclaim now hlook =>
      obtain ⟨_, hstatus, _⟩ := Custodian.hasExpired_iff.1 hlook
      rcases custodian.reclaimChange_cases row now with ⟨_, heq⟩ | ⟨hlt, heq⟩
      · rw [heq]
        exact hfailed _ now row.nextAttemptAt
      · rw [heq]
        refine ⟨fun hstored => ?_, fun _ _ => ⟨custodian.maxRetries, hthere, hlt⟩⟩
        exact absurd (hstatus.symm.trans hstored) (by decide)
  | postpone next hlook =>
      obtain ⟨hlive, _⟩ := Custodian.mayDefer_iff.1 hlook
      rcases custodian.deferChange_cases row next with ⟨_, heq⟩ | ⟨_, heq⟩
      · rw [heq]
        exact ⟨h.untried, fun _ => h.room hlive⟩
      · rw [heq]
        exact ⟨h.untried, fun _ => h.room hlive⟩

end Row.Retriable

def ceilings (history : List (Moment κ (Shift κ))) : List Count :=
  history.filterMap fun moment => moment.worker.map (·.task.publisher.settings.maxRetries)

theorem ceilings_subset (moment : Moment κ (Shift κ)) (past : List (Moment κ (Shift κ))) :
    ceilings past ⊆ ceilings (moment :: past) := by
  intro ceiling hceiling
  unfold ceilings at hceiling ⊢
  rw [List.filterMap_cons]
  split
  · exact hceiling
  · exact List.mem_cons_of_mem _ hceiling

theorem mem_ceilings {history : List (Moment κ (Shift κ))} {ceiling : Count} :
    ceiling ∈ ceilings history ↔ ∃ moment ∈ history, ∃ worker, moment.worker = some worker ∧
      worker.task.publisher.settings.maxRetries = ceiling := by
  simp [ceilings]

theorem publishing_retriable {eligible : PublisherSettings → Bool}
    (actions : List (Action κ (Shift κ))) :
    ∀ row ∈ ((publishing κ eligible).world actions).store.rows,
      row.Retriable (ceilings ((publishing κ eligible).world actions).history) := by
  refine (World.rows_hold rfl (fun history row => row.Retriable (ceilings history))
    (fun _ => Row.Retriable.fresh) (fun moment past _ h => h.mono (ceilings_subset moment past))
    ?_ actions).1
  intro earlier moment change row hmakes hcall hrow hfits h
  obtain ⟨worker, hworker, hturn⟩ := publishing_turn hmakes hcall hrow hfits
  obtain ⟨husable, _⟩ := publishing_eligible hmakes hworker
  refine (h.mono (ceilings_subset moment _)).change hturn.permits
    (PublisherSettings.usable husable).1 ?_
  exact mem_ceilings.2 ⟨moment, List.mem_cons_self .., worker, hworker, rfl⟩

/-- What an operation comes to when nobody else is at work and nothing fails. -/
def Store.ask {ε α : Type} (store : Store) (attempt : Attempt κ ε α) : Except ε α :=
  (Program.run (fun call store => store.respond { clock := epoch } call) attempt store).1

def Store.Lists (κ : Type) (store : Store) (row : Row) : Prop :=
  ∃ letters, store.ask (Custodian.deadLetters (κ := κ)) = .ok letters ∧ row ∈ letters

/-- The publisher is given the row at every instant from its next attempt on, if only it asks for
enough rows. -/
def Publisher.Awaits (publisher : Publisher κ) (store : Store) (row : Row) : Prop :=
  ∀ now limit, row.nextAttemptAt ≤ now → store.rows.length ≤ limit →
    ∃ rows, store.ask (publisher.custodian.due (κ := κ) now limit) = .ok rows ∧ row ∈ rows

/-- The publisher is never given the row. -/
def Publisher.Passes (publisher : Publisher κ) (store : Store) (row : Row) : Prop :=
  ∀ now limit, ∃ rows, store.ask (publisher.custodian.due (κ := κ) now limit) = .ok rows ∧ row ∉ rows

theorem Store.ask_due (store : Store) (custodian : Custodian) (now : Instant) (limit : Nat) :
    store.ask (custodian.due (κ := κ) now limit) =
      .ok (store.due (DueQuery.all now custodian.maxRetries limit)) :=
  rfl

theorem Store.lists_of_deadLettered {store : Store} {row : Row} (hrow : row ∈ store.rows)
    (hdead : row.deadLettered = true) : store.Lists κ row := by
  refine ⟨store.find { deadLettered := some true }, rfl, Store.mem_find_of_selects hrow ?_ rfl rfl⟩
  simp [RowFilter.selects, hdead]

/-- Of the rows that are not processed, the dead letters are listed.  All others are taken up when
their time has come, except for those that have failed, or were left processing, with no fewer
retries than the publisher makes; a publisher with a higher ceiling has been at work then. -/
theorem rows_not_lost {eligible : PublisherSettings → Bool} (actions : List (Action κ (Shift κ)))
    {row : Row} (hrow : row ∈ ((publishing κ eligible).world actions).store.rows)
    (hopen : row.status ≠ .processed) (publisher : Publisher κ) :
    row.deadLettered = true ∧ ((publishing κ eligible).world actions).store.Lists κ row ∨
    publisher.Awaits ((publishing κ eligible).world actions).store row ∨
    publisher.Passes ((publishing κ eligible).world actions).store row ∧
      (row.status = .failed ∨ row.status = .processing) ∧
      publisher.settings.maxRetries ≤ row.retries ∧
      ∃ moment ∈ ((publishing κ eligible).world actions).history, ∃ worker,
        moment.worker = some worker ∧
        row.retries < worker.task.publisher.settings.maxRetries := by
  have hretriable := publishing_retriable actions row hrow
  generalize ((publishing κ eligible).world actions) = world at hrow hretriable ⊢
  cases hdead : row.deadLettered with
  | true => exact Or.inl ⟨rfl, Store.lists_of_deadLettered hrow hdead⟩
  | false =>
      refine Or.inr ?_
      by_cases hroom : row.status = .stored ∨ row.retries < publisher.settings.maxRetries
      · refine Or.inl fun now limit hdue hlimit => ⟨_, Store.ask_due .., ?_⟩
        refine Store.mem_due_of_selects hrow ((DueQuery.selects_iff rfl).2 ⟨hdead, hdue, ?_⟩) hlimit
        cases hstatus : row.status with
        | stored => exact Or.inl rfl
        | failed => exact Or.inr ⟨Or.inl rfl, hroom.resolve_left (by simp [hstatus])⟩
        | processing => exact Or.inr ⟨Or.inr rfl, hroom.resolve_left (by simp [hstatus])⟩
        | processed => exact absurd hstatus hopen
      · obtain ⟨hstored, hfull⟩ := not_or.1 hroom
        have hheld : row.status = .failed ∨ row.status = .processing := by
          cases hstatus : row.status <;> simp_all
        obtain ⟨ceiling, hceiling, hlt⟩ := hretriable.room hdead hheld
        obtain ⟨moment, hmoment, worker, hworker, rfl⟩ := mem_ceilings.1 hceiling
        refine Or.inr ⟨fun now limit => ⟨_, Store.ask_due .., fun hgiven => ?_⟩, hheld,
          UInt32.not_lt.1 hfull, moment, hmoment, worker, hworker, hlt⟩
        obtain ⟨_, _, hselected⟩ := (DueQuery.selects_iff rfl).1 (Store.mem_due hgiven).2
        exact hselected.elim hstored fun hretries => hfull hretries.2

/-- A publisher that tries everything twice has failed to deliver a parcel once. -/
def parcelFailed : List (Action Unit (Shift Unit)) :=
  ticking epoch 0 5 (.error (.transportUnavailable "no route")) ++ posted 1 (parcel 1 none)

def patience (maxRetries : Count) : Publisher Unit :=
  ⟨⟨Registry.empty, Table.empty⟩, { maxRetries := maxRetries }⟩

theorem parcel_failed : ((publishing Unit fun _ => true).world parcelFailed).store.rows.length = 1 ∧
    ∀ row ∈ ((publishing Unit fun _ => true).world parcelFailed).store.rows,
      row.status = .failed ∧ row.retries = 1 ∧ row.deadLettered = false := by
  constructor
  · decide +kernel
  · decide +kernel

theorem parcel_not_lost :
    ∃ row ∈ ((publishing Unit fun _ => true).world parcelFailed).store.rows,
      row.status ≠ .processed ∧
      (row.deadLettered = true ∧
          ((publishing Unit fun _ => true).world parcelFailed).store.Lists Unit row ∨
        (patience 2).Awaits ((publishing Unit fun _ => true).world parcelFailed).store row ∨
        (patience 2).Passes ((publishing Unit fun _ => true).world parcelFailed).store row ∧
          (row.status = .failed ∨ row.status = .processing) ∧
          (patience 2).settings.maxRetries ≤ row.retries ∧
          ∃ moment ∈ ((publishing Unit fun _ => true).world parcelFailed).history, ∃ worker,
            moment.worker = some worker ∧
            row.retries < worker.task.publisher.settings.maxRetries) := by
  obtain ⟨hlength, hfailed⟩ := parcel_failed
  obtain ⟨row, hrow⟩ := List.exists_mem_of_length_pos (Nat.lt_of_lt_of_eq Nat.zero_lt_one hlength.symm)
  have hopen : row.status ≠ .processed := by simp [(hfailed row hrow).1]
  exact ⟨row, hrow, hopen, rows_not_lost parcelFailed hrow hopen (patience 2)⟩

/-- A publisher that tries everything once never takes the parcel up again, and nobody lists it. -/
theorem parcel_passed_over :
    (patience 1).settings.fault? = none ∧
      ¬ ∀ row ∈ ((publishing Unit fun _ => true).world parcelFailed).store.rows,
        row.status ≠ .processed →
          row.deadLettered = true ∧
              ((publishing Unit fun _ => true).world parcelFailed).store.Lists Unit row ∨
            (patience 1).Awaits ((publishing Unit fun _ => true).world parcelFailed).store row := by
  obtain ⟨hlength, hfailed⟩ := parcel_failed
  obtain ⟨row, hrow⟩ := List.exists_mem_of_length_pos (Nat.lt_of_lt_of_eq Nat.zero_lt_one hlength.symm)
  obtain ⟨hstatus, hretries, hlive⟩ := hfailed row hrow
  refine ⟨by decide, fun hall => ?_⟩
  rcases hall row hrow (by simp [hstatus]) with ⟨hdead, _⟩ | hawaits
  · exact absurd (hlive.symm.trans hdead) Bool.false_ne_true
  · obtain ⟨rows, hdue, hgiven⟩ := hawaits row.nextAttemptAt 1 (Int.le_refl _) (Nat.le_of_eq hlength)
    rw [Store.ask_due] at hdue
    obtain rfl := Except.ok.inj hdue
    obtain ⟨_, _, hstored | ⟨_, hroom⟩⟩ := (DueQuery.selects_iff rfl).1 (Store.mem_due hgiven).2
    · exact absurd (hstatus.symm.trans hstored) (by decide)
    · rw [hretries] at hroom
      exact absurd hroom (show ¬ (1 : Count) < 1 by decide)

end Courier
