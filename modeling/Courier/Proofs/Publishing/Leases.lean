import Courier.Proofs.Publishing.Claims
/-
Leases and backoff.  A row is claimed only when its time has come, and whoever changes a row sets the
time of the next claim: a claim until it runs out, a failure and a postponement until the backoff is
over.  What comes in between only moves that time on, as far as the time line goes.
-/
namespace Courier

variable {κ : Type}

/-- The claims that a history tells of, next to the row as it is now. -/
structure Recorded (id : RowId) (store : Store) (history : List (Moment κ (Shift κ))) : Prop where
  made : ∀ row, store.get? id = some row → row.status = .processing →
    ∃ moment ∈ history, ∃ worker, moment.worker = some worker ∧ moment.claim? id = some row ∧
      row.nextAttemptAt = worker.task.now.after worker.task.publisher.settings.claimTimeout
  aged : ∀ moment ∈ history, ∀ claimed, moment.claim? id = some claimed →
    ∃ row, store.get? id = some row ∧ claimed.version ≤ row.version
  unique : ∀ moment ∈ history, ∀ other ∈ history, ∀ claimed, moment.claim? id = some claimed →
    other.claim? id = some claimed → moment.worker = other.worker

section

variable {eligible : PublisherSettings → Bool} {earlier : List (Action κ (Shift κ))}
  {moment : Moment κ (Shift κ)} {id : RowId}

theorem Recorded.step
    (h : Recorded id ((publishing κ eligible).world earlier).store
      ((publishing κ eligible).world earlier).history)
    (hmakes : (publishing κ eligible).Makes ((publishing κ eligible).world earlier) moment) :
    Recorded id moment.after (moment :: ((publishing κ eligible).world earlier).history) := by
  have hversion : ∀ row, ((publishing κ eligible).world earlier).store.get? id = some row →
      ∃ after, moment.after.get? id = some after ∧ row.version ≤ after.version ∧
        ∀ claimed, moment.claim? id = some claimed → row.version < claimed.version := by
    intro row hrow
    cases publishing_fate hmakes id with
    | absent hbefore => simp [hrow] at hbefore
    | committed _ _ hbefore => simp [hrow] at hbefore
    | kept same hbefore hafter hnone =>
        obtain rfl := Option.some.inj (hbefore.symm.trans hrow)
        exact ⟨same, hafter, Int.le_refl _, by simp [hnone]⟩
    | turned same after worker hbefore hafter _ hmore _ _ hclaim =>
        obtain rfl := Option.some.inj (hbefore.symm.trans hrow)
        refine ⟨after, hafter, by omega, fun claimed hsome => ?_⟩
        rw [hclaim] at hsome
        split at hsome
        · obtain rfl := Option.some.inj hsome
          omega
        · cases hsome
  have hnew : ∀ other ∈ ((publishing κ eligible).world earlier).history, ∀ claimed,
      moment.claim? id = some claimed → other.claim? id ≠ some claimed := by
    intro other hother claimed hclaim hsame
    obtain ⟨row, hrow, hle⟩ := h.aged other hother claimed hsame
    obtain ⟨_, _, _, hlt⟩ := hversion row hrow
    have hnewer := hlt claimed hclaim
    omega
  constructor
  · intro row hrow hstatus
    cases publishing_fate hmakes id with
    | absent _ hafter => simp [hrow] at hafter
    | committed draft now _ hafter =>
        obtain rfl := Option.some.inj (hafter.symm.trans hrow)
        cases hstatus
    | kept before hbefore hafter =>
        obtain rfl := Option.some.inj (hafter.symm.trans hrow)
        obtain ⟨made, hmade, hrest⟩ := h.made before hbefore hstatus
        exact ⟨made, List.mem_cons_of_mem _ hmade, hrest⟩
    | turned before after worker _ hafter _ _ hworker houtcome hclaim =>
        obtain rfl := Option.some.inj (hafter.symm.trans hrow)
        rw [if_pos hstatus] at hclaim
        exact ⟨moment, List.mem_cons_self .., worker, hworker, hclaim,
          (houtcome.of_processing hstatus).2⟩
  · intro other hother claimed hclaim
    rcases List.mem_cons.1 hother with rfl | hold
    · exact ⟨claimed, (Moment.of_claim? hclaim).1, Int.le_refl _⟩
    · obtain ⟨row, hrow, hle⟩ := h.aged other hold claimed hclaim
      obtain ⟨after, hafter, hmore, _⟩ := hversion row hrow
      exact ⟨after, hafter, Int.le_trans hle hmore⟩
  · intro a ha b hb claimed hclaim hsame
    rcases List.mem_cons.1 ha with rfl | holda
    · rcases List.mem_cons.1 hb with rfl | holdb
      · rfl
      · exact absurd hsame (hnew b holdb claimed hclaim)
    · rcases List.mem_cons.1 hb with rfl | holdb
      · exact absurd hclaim (hnew a holda claimed hsame)
      · exact h.unique a holda b holdb claimed hclaim hsame

theorem publishing_recorded (id : RowId) (actions : List (Action κ (Shift κ))) :
    Recorded id ((publishing κ eligible).world actions).store
      ((publishing κ eligible).world actions).history := by
  refine Rules.call_induction rfl (fun store _ history => Recorded id store history) ?_ ?_ actions
  · constructor
    · intro row hrow
      cases hrow
    · intro moment hmoment
      cases hmoment
    · intro moment hmoment
      cases hmoment
  · intro earlier moment h hmakes
    exact h.step hmakes

/-- The row is not claimed before a time: nobody who claims it ticks before, and if somebody has
claimed it then not before either.  A row that is done for good is not claimed at all. -/
def NotBefore (bound : Instant) (id : RowId) (store : Store) (history : List (Moment κ (Shift κ))) :
    Prop :=
  ∃ row, store.get? id = some row ∧ (row.isTerminal = true ∨
    row.status ≠ .processing ∧ bound ≤ row.nextAttemptAt ∨
    row.status = .processing ∧ ∀ moment ∈ history, ∀ worker, moment.worker = some worker →
      moment.claim? id = some row → bound ≤ worker.task.now)

/-- A change of a row by a tick that comes late enough. -/
theorem NotBefore.of_change {row after : Row} {worker : Worker (Shift κ)} {phase : Phase}
    {bound : Instant}
    (hmakes : (publishing κ eligible).Makes ((publishing κ eligible).world earlier) moment)
    (hrow : ((publishing κ eligible).world earlier).store.get? id = some row)
    (hafter : moment.after.get? id = some after) (hversion : after.version = row.version + 1)
    (hworker : moment.worker = some worker) (houtcome : worker.task.Outcome phase row after)
    (hbound : bound ≤ Instant.latest) (hnow : bound ≤ worker.task.now) :
    NotBefore bound id moment.after (moment :: ((publishing κ eligible).world earlier).history) := by
  refine ⟨after, hafter, ?_⟩
  by_cases hstatus : after.status = .processing
  · refine Or.inr (Or.inr ⟨hstatus, fun made hmade other hother hclaim => ?_⟩)
    rcases List.mem_cons.1 hmade with rfl | hold
    · obtain rfl := Option.some.inj (hworker.symm.trans hother)
      exact hnow
    · obtain ⟨before, hbefore, hle⟩ := (publishing_recorded id earlier).aged made hold after hclaim
      rw [hrow] at hbefore
      obtain rfl := Option.some.inj hbefore
      omega
  · cases houtcome with
    | claimed _ _ _ _ _ _ hprocessing => exact absurd hprocessing hstatus
    | takenOver _ _ hprocessing => exact absurd hprocessing hstatus
    | postponed _ _ _ _ _ hnext =>
        refine Or.inr (Or.inl ⟨hstatus, ?_⟩)
        rw [hnext]
        exact Instant.le_after_of_le _ hbound hnow
    | succeeded _ _ hprocessed => simp [hprocessed]
    | failed _ _ _ _ _ hnext =>
        refine Or.inr (Or.inl ⟨hstatus, ?_⟩)
        rw [hnext]
        exact Instant.le_after_of_le _ hbound hnow
    | ended _ _ hdead => simp [hdead]

/-- Whoever turns a row that is not claimed before a time ticks no earlier, or ends the row for
good. -/
theorem NotBefore.le_now {row after : Row} {worker : Worker (Shift κ)} {bound : Instant}
    (h : NotBefore bound id ((publishing κ eligible).world earlier).store
      ((publishing κ eligible).world earlier).history)
    (hmakes : (publishing κ eligible).Makes ((publishing κ eligible).world earlier) moment)
    (hrow : ((publishing κ eligible).world earlier).store.get? id = some row)
    (hworker : moment.worker = some worker)
    (houtcome : worker.task.Outcome
      (phaseOf worker.number ((publishing κ eligible).world earlier).history) row after)
    (hbound : bound ≤ Instant.latest) :
    after.status ≠ .processing ∧ after.isTerminal = true ∨ bound ≤ worker.task.now := by
  obtain ⟨same, hsame, hcases⟩ := h
  rw [hrow] at hsame
  obtain rfl := Option.some.inj hsame
  have hregular := publishing_orderly.regular earlier hrow
  have hfree : row.deadLettered = false → row.status = .stored ∨ row.status = .failed →
      bound ≤ row.nextAttemptAt := by
    intro hlive hstatus
    rcases hcases with hterminal | ⟨_, hle⟩ | ⟨hprocessing, _⟩
    · rcases hstatus with hstatus | hstatus
      · simp [hlive, hstatus] at hterminal
      · simp [hlive, hstatus] at hterminal
    · exact hle
    · simp [hprocessing] at hstatus
  have hheld : row.status = .processing → ∀ made ∈ ((publishing κ eligible).world earlier).history,
      ∀ maker, made.worker = some maker → made.claim? id = some row → bound ≤ maker.task.now := by
    intro hstatus
    rcases hcases with hterminal | ⟨hfree, _⟩ | ⟨_, hclaimed⟩
    · cases hdead : row.deadLettered with
      | true =>
          have hundelivered := hregular.undelivered hdead
          simp [hstatus] at hundelivered
      | false => simp [hdead, hstatus] at hterminal
    · exact absurd hstatus hfree
    · exact hclaimed
  cases houtcome with
  | claimed hlive hstatus _ hdue => exact Or.inr (Instant.le_trans (hfree hlive hstatus) hdue)
  | takenOver hstatus hdue =>
      obtain ⟨made, hmade, maker, hmaker, hclaim, hdeadline⟩ :=
        (publishing_recorded id earlier).made row hrow hstatus
      have hclaimed := hheld hstatus made hmade maker hmaker hclaim
      rw [hdeadline] at hdue
      exact Or.inr (Instant.le_trans (Instant.le_after_of_le _ hbound hclaimed) hdue)
  | postponed hstatus hdue _ hlive => exact Or.inr (Instant.le_trans (hfree hlive hstatus) hdue)
  | succeeded _ _ hprocessed => exact Or.inl ⟨by simp [hprocessed], by simp [hprocessed]⟩
  | failed hstatus hhold =>
      rw [row?_phaseOf] at hhold
      obtain ⟨made, hmade, hmaker, hclaim⟩ :=
        won_by_holder hmakes (List.mem_cons_self ..) hworker hhold
      rw [(Store.mem_of_get? hrow).2] at hclaim
      exact Or.inr (hheld hstatus made hmade worker hmaker hclaim)
  | ended _ hfailed hdead => exact Or.inl ⟨by simp [hfailed], by simp [hdead]⟩

theorem NotBefore.step {bound : Instant}
    (h : NotBefore bound id ((publishing κ eligible).world earlier).store
      ((publishing κ eligible).world earlier).history)
    (hmakes : (publishing κ eligible).Makes ((publishing κ eligible).world earlier) moment)
    (hbound : bound ≤ Instant.latest) :
    NotBefore bound id moment.after (moment :: ((publishing κ eligible).world earlier).history) := by
  obtain ⟨row, hrow, hcases⟩ := h
  cases publishing_fate hmakes id with
  | absent hbefore => simp [hrow] at hbefore
  | committed _ _ hbefore => simp [hrow] at hbefore
  | kept same hbefore hafter hnone =>
      obtain rfl := Option.some.inj (hbefore.symm.trans hrow)
      refine ⟨same, hafter, ?_⟩
      rcases hcases with hterminal | hfree | ⟨hstatus, hclaimed⟩
      · exact Or.inl hterminal
      · exact Or.inr (Or.inl hfree)
      · refine Or.inr (Or.inr ⟨hstatus, fun made hmade worker hworker hclaim => ?_⟩)
        rcases List.mem_cons.1 hmade with rfl | hold
        · rw [hnone] at hclaim
          cases hclaim
        · exact hclaimed made hold worker hworker hclaim
  | turned same after worker hbefore hafter _ hversion hworker houtcome =>
      obtain rfl := Option.some.inj (hbefore.symm.trans hrow)
      have hle := NotBefore.le_now ⟨same, hrow, hcases⟩ hmakes hrow hworker houtcome hbound
      rcases hle with ⟨_, hterminal⟩ | hnow
      · exact ⟨after, hafter, Or.inl hterminal⟩
      · exact NotBefore.of_change hmakes hrow hafter hversion hworker houtcome hbound hnow

theorem NotBefore.le_of_claim {bound : Instant}
    (h : NotBefore bound id ((publishing κ eligible).world earlier).store
      ((publishing κ eligible).world earlier).history)
    (hmakes : (publishing κ eligible).Makes ((publishing κ eligible).world earlier) moment)
    (hbound : bound ≤ Instant.latest) {claimed : Row} (hclaim : moment.claim? id = some claimed)
    {worker : Worker (Shift κ)} (hworker : moment.worker = some worker) :
    bound ≤ worker.task.now := by
  obtain ⟨other, row, hother, hrow, houtcome, _⟩ := publishing_claims hmakes hclaim
  obtain rfl := Option.some.inj (hworker.symm.trans hother)
  rcases h.le_now hmakes hrow hworker houtcome hbound with ⟨hstatus, _⟩ | hnow
  · exact absurd (Moment.of_claim? hclaim).2 hstatus
  · exact hnow

/-- A claim stands until it runs out, unless its holder settles it. -/
theorem held_or_notBefore (actions : List (Action κ (Shift κ))) (number : Nat) (claimed : Row)
    (hheld : held number ((publishing κ eligible).world actions).history = some claimed) :
    ((publishing κ eligible).world actions).store.get? claimed.id = some claimed ∨
      NotBefore claimed.nextAttemptAt.saturated claimed.id
        ((publishing κ eligible).world actions).store
        ((publishing κ eligible).world actions).history := by
  refine Rules.call_induction rfl (fun store _ history => ∀ number claimed,
    held number history = some claimed → store.get? claimed.id = some claimed ∨
      NotBefore claimed.nextAttemptAt.saturated claimed.id store history) ?_ ?_ actions number
    claimed hheld
  · intro number claimed hheld
    cases hheld
  · intro earlier moment ih hmakes number claimed hheld
    have hbound := claimed.nextAttemptAt.saturated_le_latest
    rcases held_cons hheld with ⟨_, hswap, hshown, _⟩ | ⟨hold, hother⟩
    · exact Or.inl (World.get?_of_shown hmakes hswap hshown).2.1
    · rcases ih number claimed hold with hrow | hkept
      · have hholders : Holders ((publishing κ eligible).world earlier).history :=
          publishing_holders earlier
        obtain ⟨_, _, _, _, _, hclaim, _⟩ := hholders.won number claimed hold
        have hprocessing := (Moment.of_claim? hclaim).2
        obtain ⟨after, hafter, heq | ⟨_, hversion, hswap, worker, hworker, houtcome⟩⟩ :=
          publishing_turns hmakes hrow
        · rw [heq] at hafter
          exact Or.inl hafter
        · refine Or.inr ?_
          have hturned := NotBefore.of_change hmakes hrow hafter hversion hworker houtcome hbound
          cases houtcome with
          | claimed _ hfree => simp [hprocessing] at hfree
          | takenOver _ hdue => exact hturned (Instant.le_trans (Instant.saturated_le _) hdue)
          | postponed hfree => simp [hprocessing] at hfree
          | succeeded _ _ hprocessed =>
              exact ⟨after, hafter, Or.inl (by simp [hprocessed])⟩
          | failed _ hhold =>
              rw [row?_phaseOf] at hhold
              have hnumber := hholders.alone _ _ claimed hhold hold
              exact absurd ⟨Moment.isBy_iff.2 ⟨worker, hworker, hnumber⟩, hswap⟩ hother
          | ended _ _ hdead => exact ⟨after, hafter, Or.inl (by simp [hdead])⟩
      · exact Or.inr (hkept.step hmakes hbound)

/-- A row that somebody else holds a claim of is claimed after that one has run out. -/
theorem le_of_claim_of_held {number : Nat} {before claimed : Row} {worker : Worker (Shift κ)}
    (hmakes : (publishing κ eligible).Makes ((publishing κ eligible).world earlier) moment)
    (hheld : held number ((publishing κ eligible).world earlier).history = some before)
    (hclaim : moment.claim? before.id = some claimed) (hworker : moment.worker = some worker) :
    before.nextAttemptAt.saturated ≤ worker.task.now := by
  rcases held_or_notBefore earlier number before hheld with hrow | hkept
  · obtain ⟨other, row, hother, hfound, _, hdue, _⟩ := publishing_claims hmakes hclaim
    obtain rfl := Option.some.inj (hworker.symm.trans hother)
    obtain rfl := Option.some.inj (hrow.symm.trans hfound)
    exact Instant.le_trans (Instant.saturated_le _) hdue
  · exact hkept.le_of_claim hmakes (Instant.saturated_le_latest _) hclaim hworker

/-- Of two workers that hold claims of one row, one has made its claim after the other one ran
out. -/
def Apart (history : List (Moment κ (Shift κ))) : Prop :=
  ∀ one ∈ history, ∀ two ∈ history, ∀ a b x y, one.worker = some a → two.worker = some b →
    held a.number history = some x → held b.number history = some y → x.id = y.id →
    a.number ≠ b.number →
    x.nextAttemptAt.saturated ≤ b.task.now ∨ y.nextAttemptAt.saturated ≤ a.task.now

theorem publishing_apart (actions : List (Action κ (Shift κ))) :
    Apart ((publishing κ eligible).world actions).history := by
  refine Rules.call_induction rfl (fun _ _ history => Apart history) ?_ ?_ actions
  · intro one hone
    cases hone
  · intro earlier moment ih hmakes one hone two htwo a b x y ha hb hx hy hid hne
    rcases claimed_or_held hmakes hone ha hx with ⟨hworker, hclaim⟩ | holdx
    · rcases claimed_or_held hmakes htwo hb hy with ⟨hother, _⟩ | holdy
      · obtain rfl := Option.some.inj (hworker.symm.trans hother)
        exact absurd rfl hne
      · rw [hid] at hclaim
        exact Or.inr (le_of_claim_of_held hmakes holdy hclaim hworker)
    · rcases claimed_or_held hmakes htwo hb hy with ⟨hworker, hclaim⟩ | holdy
      · rw [← hid] at hclaim
        exact Or.inl (le_of_claim_of_held hmakes holdx hclaim hworker)
      · obtain ⟨madex, hmadex, hmaker, _⟩ := won_by_holder hmakes hone ha holdx
        obtain ⟨madey, hmadey, hother, _⟩ := won_by_holder hmakes htwo hb holdy
        exact ih madex hmadex madey hmadey a b x y hmaker hother holdx holdy hid hne

theorem deadline_of_claim {actions : List (Action κ (Shift κ))}
    (hmoment : moment ∈ ((publishing κ eligible).world actions).history) {claimed : Row}
    (hclaim : moment.claim? id = some claimed) {worker : Worker (Shift κ)}
    (hworker : moment.worker = some worker) :
    claimed.nextAttemptAt = worker.task.now.after worker.task.publisher.settings.claimTimeout := by
  obtain ⟨later, past, hhistory⟩ := List.append_of_mem hmoment
  obtain ⟨earlier, _, hmakes⟩ := World.made_earlier rfl actions hhistory
  obtain ⟨other, _, hother, _, _, _, hdeadline⟩ := publishing_claims hmakes hclaim
  obtain rfl := Option.some.inj (hworker.symm.trans hother)
  exact hdeadline

/-- What bounds the claims of a row right after a call bounds every later claim. -/
theorem le_of_later_claim {actions : List (Action κ (Shift κ))} {bound : Instant}
    {second : Moment κ (Shift κ)} {later between past : List (Moment κ (Shift κ))}
    (hhistory : ((publishing κ eligible).world actions).history =
      later ++ second :: (between ++ moment :: past))
    (hkept : NotBefore bound id moment.after (moment :: past)) (hbound : bound ≤ Instant.latest)
    {claimed : Row} (hclaim : second.claim? id = some claimed) {worker : Worker (Shift κ)}
    (hworker : second.worker = some worker) : bound ≤ worker.task.now := by
  obtain ⟨earlier, hpast, hmakes⟩ := World.made_earlier rfl actions hhistory
  have hnow := World.from_call_on rfl (fun store history => NotBefore bound id store history) hkept
    (fun _ _ h hmade => h.step hmade hbound) earlier hpast
  exact hnow.le_of_claim hmakes hbound hclaim hworker

end

/-- A worker holds a claim of a row, and by then the claim has not run out. -/
structure Worker.HoldsLive (worker : Worker (Shift κ)) (history : List (Moment κ (Shift κ)))
    (id : RowId) (t : Instant) : Prop where
  acts : ∃ moment ∈ history, moment.worker = some worker
  claim : ∃ claimed, held worker.number history = some claimed ∧ claimed.id = id
  begun : worker.task.now ≤ t
  lasts : t < (worker.task.now.after worker.task.publisher.settings.claimTimeout).saturated

/-- How far the claims of a row lie apart in a history, which has its latest call first. -/
structure Spaced (id : RowId) (history : List (Moment κ (Shift κ))) : Prop where
  /-- The time of a row that is claimed has come at the very moment of the claim. -/
  due : ∀ claiming ∈ history, ∀ claimed, claiming.claim? id = some claimed →
    ∃ worker row, claiming.worker = some worker ∧ claiming.before.get? id = some row ∧
      row.nextAttemptAt ≤ worker.task.now
  /-- A claim that nobody has settled lasts until it runs out. -/
  unsettled : ∀ first second a b claimed again, [second, first].Sublist history →
    first.worker = some a → first.claim? id = some claimed →
    second.worker = some b → second.claim? id = some again →
    second.before.get? id = some claimed →
    a.task.now.after a.task.publisher.settings.claimTimeout ≤ b.task.now
  /-- After a claim was settled as a failure that may be tried again, the backoff of its worker for
  so many failures is kept. -/
  failed : ∀ first settling second a b claimed failed again,
    [second, settling, first].Sublist history →
    first.worker = some a → first.claim? id = some claimed →
    settling.before.get? id = some claimed → settling.after.get? id = some failed →
    Move.fail.Leads claimed failed → failed.deadLettered = false →
    second.worker = some b → second.claim? id = some again →
    (a.task.publisher.nextAttemptAt a.task.now failed.retries).saturated ≤ b.task.now
  /-- After a postponement, the backoff of the worker for so many postponements is kept. -/
  postponed : ∀ postponing second a b row postponed again, [second, postponing].Sublist history →
    postponing.worker = some a →
    postponing.before.get? id = some row → postponing.after.get? id = some postponed →
    Move.postpone.Leads row postponed →
    second.worker = some b → second.claim? id = some again →
    (a.task.publisher.nextAttemptAt a.task.now postponed.deferrals).saturated ≤ b.task.now
  /-- At no time do two workers hold claims of the row that have not run out. -/
  alone : ∀ (a b : Worker (Shift κ)) t, a.HoldsLive history id t → b.HoldsLive history id t → a = b

theorem split_of_sublist {α : Type} {a : α} {rest list : List α} (h : (a :: rest).Sublist list) :
    ∃ before after, list = before ++ a :: after ∧ rest.Sublist after := by
  obtain ⟨front, back, rfl, hmem, hrest⟩ := List.cons_sublist_iff.1 h
  obtain ⟨before, after, rfl⟩ := List.append_of_mem hmem
  refine ⟨before, after ++ back, by simp, ?_⟩
  exact hrest.trans (List.sublist_append_right after back)

section

variable {eligible : PublisherSettings → Bool} (actions : List (Action κ (Shift κ))) (id : RowId)

theorem claims_due {claiming : Moment κ (Shift κ)}
    (hclaiming : claiming ∈ ((publishing κ eligible).world actions).history) {claimed : Row}
    (hclaim : claiming.claim? id = some claimed) :
    ∃ worker row, claiming.worker = some worker ∧ claiming.before.get? id = some row ∧
      row.nextAttemptAt ≤ worker.task.now := by
  obtain ⟨later, past, hhistory⟩ := List.append_of_mem hclaiming
  obtain ⟨earlier, _, hmakes⟩ := World.made_earlier rfl actions hhistory
  obtain ⟨worker, row, hworker, hrow, _, hdue, _⟩ := publishing_claims hmakes hclaim
  rw [← hmakes.before] at hrow
  exact ⟨worker, row, hworker, hrow, hdue⟩

theorem unsettled_claim_lasts {first second : Moment κ (Shift κ)} {a b : Worker (Shift κ)}
    {claimed again : Row}
    (horder : [second, first].Sublist ((publishing κ eligible).world actions).history)
    (ha : first.worker = some a) (hclaim : first.claim? id = some claimed)
    (hb : second.worker = some b) (hagain : second.claim? id = some again)
    (hstands : second.before.get? id = some claimed) :
    a.task.now.after a.task.publisher.settings.claimTimeout ≤ b.task.now := by
  have hfirst := horder.subset (List.mem_cons_of_mem _ (List.mem_singleton_self first))
  have hsecond := horder.subset (List.mem_cons_self ..)
  obtain ⟨worker, row, hworker, hrow, hdue⟩ := claims_due actions id hsecond hagain
  obtain rfl := Option.some.inj (hb.symm.trans hworker)
  obtain rfl := Option.some.inj (hstands.symm.trans hrow)
  rw [deadline_of_claim hfirst hclaim ha] at hdue
  exact hdue

/-- A claim is settled as a failure that may be tried again by the worker that has made it. -/
theorem failed_by_claimer {earlier : List (Action κ (Shift κ))} {first settling : Moment κ (Shift κ)}
    (hmakes : (publishing κ eligible).Makes ((publishing κ eligible).world earlier) settling)
    (hfirst : first ∈ ((publishing κ eligible).world earlier).history) {a : Worker (Shift κ)}
    (ha : first.worker = some a) {claimed failed : Row} (hclaim : first.claim? id = some claimed)
    (hbefore : settling.before.get? id = some claimed)
    (hafter : settling.after.get? id = some failed) (hfail : Move.fail.Leads claimed failed)
    (hlive : failed.deadLettered = false) :
    failed.nextAttemptAt = a.task.publisher.nextAttemptAt a.task.now failed.retries := by
  obtain ⟨hprocessing, hfailed⟩ := hfail
  rw [hmakes.before] at hbefore
  obtain ⟨after, hsame, hcases⟩ := publishing_turns hmakes hbefore
  obtain rfl := Option.some.inj (hafter.symm.trans hsame)
  rcases hcases with heq | ⟨_, _, _, worker, hworker, houtcome⟩
  · rw [heq, hprocessing] at hfailed
    cases hfailed
  · cases houtcome with
    | claimed _ _ _ _ _ _ hstatus => simp [hstatus] at hfailed
    | takenOver _ _ hstatus => simp [hstatus] at hfailed
    | postponed hfree => simp [hprocessing] at hfree
    | succeeded _ _ hstatus => simp [hstatus] at hfailed
    | ended _ _ hdead => simp [hdead] at hlive
    | failed _ hhold _ _ _ hnext =>
        rw [row?_phaseOf] at hhold
        obtain ⟨made, hmade, hmaker, hwon⟩ :=
          won_by_holder hmakes (List.mem_cons_self ..) hworker hhold
        rw [(Store.mem_of_get? hbefore).2] at hwon
        have hsame := (publishing_recorded id earlier).unique first hfirst made hmade claimed hclaim
          hwon
        rw [ha, hmaker] at hsame
        obtain rfl := Option.some.inj hsame
        exact hnext

theorem backoff_after_failure {first settling second : Moment κ (Shift κ)} {a b : Worker (Shift κ)}
    {claimed failed again : Row}
    (horder : [second, settling, first].Sublist ((publishing κ eligible).world actions).history)
    (ha : first.worker = some a) (hclaim : first.claim? id = some claimed)
    (hbefore : settling.before.get? id = some claimed)
    (hafter : settling.after.get? id = some failed) (hfail : Move.fail.Leads claimed failed)
    (hlive : failed.deadLettered = false) (hb : second.worker = some b)
    (hagain : second.claim? id = some again) :
    (a.task.publisher.nextAttemptAt a.task.now failed.retries).saturated ≤ b.task.now := by
  obtain ⟨later, rest, hhistory, horder⟩ := split_of_sublist horder
  obtain ⟨between, past, rfl, hsoon⟩ := split_of_sublist horder
  have hfirst := hsoon.subset (List.mem_singleton_self first)
  have hsettling : ((publishing κ eligible).world actions).history =
      (later ++ second :: between) ++ settling :: past := by
    rw [hhistory, List.append_assoc, List.cons_append]
  obtain ⟨earlier, rfl, hmakes⟩ := World.made_earlier rfl actions hsettling
  have hnext := failed_by_claimer id hmakes hfirst ha hclaim hbefore hafter hfail hlive
  refine le_of_later_claim hhistory ?_ (Instant.saturated_le_latest _) hagain hb
  refine ⟨failed, hafter, Or.inr (Or.inl ⟨?_, ?_⟩)⟩
  · rw [hfail.2]
    decide
  · rw [hnext]
    exact Instant.saturated_le _

theorem backoff_after_postponement {postponing second : Moment κ (Shift κ)}
    {a b : Worker (Shift κ)} {row postponed again : Row}
    (horder : [second, postponing].Sublist ((publishing κ eligible).world actions).history)
    (ha : postponing.worker = some a) (hbefore : postponing.before.get? id = some row)
    (hafter : postponing.after.get? id = some postponed)
    (hpostpone : Move.postpone.Leads row postponed) (hb : second.worker = some b)
    (hagain : second.claim? id = some again) :
    (a.task.publisher.nextAttemptAt a.task.now postponed.deferrals).saturated ≤ b.task.now := by
  obtain ⟨hfree, hstatus, hdeferrals⟩ := hpostpone
  obtain ⟨later, rest, hhistory, horder⟩ := split_of_sublist horder
  obtain ⟨between, past, rfl, _⟩ := split_of_sublist horder
  have hpostponing : ((publishing κ eligible).world actions).history =
      (later ++ second :: between) ++ postponing :: past := by
    rw [hhistory, List.append_assoc, List.cons_append]
  obtain ⟨earlier, rfl, hmakes⟩ := World.made_earlier rfl actions hpostponing
  refine le_of_later_claim hhistory ?_ (Instant.saturated_le_latest _) hagain hb
  rw [hmakes.before] at hbefore
  obtain ⟨after, hsame, hcases⟩ := publishing_turns hmakes hbefore
  obtain rfl := Option.some.inj (hafter.symm.trans hsame)
  rcases hcases with heq | ⟨_, _, _, worker, hworker, houtcome⟩
  · rw [heq] at hdeferrals
    omega
  · obtain rfl := Option.some.inj (ha.symm.trans hworker)
    cases houtcome with
    | claimed _ _ _ _ _ _ hprocessing => simp [← hstatus, hprocessing] at hfree
    | takenOver hheld => simp [hheld] at hfree
    | succeeded hheld => simp [hheld] at hfree
    | failed hheld => simp [hheld] at hfree
    | ended hheld => simp [hheld] at hfree
    | postponed _ _ _ _ _ hnext =>
        refine ⟨postponed, hafter, Or.inr (Or.inl ⟨?_, ?_⟩)⟩
        · intro hprocessing
          simp [← hstatus, hprocessing] at hfree
        · rw [hnext]
          exact Instant.saturated_le _

theorem live_claims_alone {a b : Worker (Shift κ)} {t : Instant}
    (ha : a.HoldsLive ((publishing κ eligible).world actions).history id t)
    (hb : b.HoldsLive ((publishing κ eligible).world actions).history id t) : a = b := by
  obtain ⟨⟨one, hone, hworker⟩, ⟨x, hx, hxid⟩, hbeguna, hlastsa⟩ := ha
  obtain ⟨⟨two, htwo, hother⟩, ⟨y, hy, hyid⟩, hbegunb, hlastsb⟩ := hb
  have hdeadline : ∀ (w : Worker (Shift κ)) z, (∃ made ∈ ((publishing κ eligible).world
      actions).history, made.worker = some w) →
      held w.number ((publishing κ eligible).world actions).history = some z →
      z.nextAttemptAt = w.task.now.after w.task.publisher.settings.claimTimeout := by
    intro w z ⟨made, hmade, hw⟩ hz
    obtain ⟨winning, hwinning, maker, hmaker, hnumber, _, hnext⟩ :=
      (publishing_holders actions).won w.number z hz
    obtain rfl := World.worker_alone publishing_follows actions hwinning hmade hmaker hw hnumber
    exact hnext
  by_cases hnumber : a.number = b.number
  · exact World.worker_alone publishing_follows actions hone htwo hworker hother hnumber
  · have hapart := publishing_apart actions one hone two htwo a b x y hworker hother hx hy
      (hxid.trans hyid.symm) hnumber
    rw [hdeadline a x ⟨one, hone, hworker⟩ hx, hdeadline b y ⟨two, htwo, hother⟩ hy] at hapart
    rcases hapart with hle | hle
    · exact absurd hlastsa (Instant.not_lt_of_le (Instant.le_trans hle hbegunb))
    · exact absurd hlastsb (Instant.not_lt_of_le (Instant.le_trans hle hbeguna))

/-- In every interleaving of publishers, each with settings of its own and ticking at any instants,
the claims of every row keep the leases and the backoff of those who have changed the row before. -/
theorem claims_spaced : Spaced id ((publishing κ eligible).world actions).history where
  due _ hclaiming _ hclaim := claims_due actions id hclaiming hclaim
  unsettled _ _ _ _ _ _ horder ha hclaim hb hagain hstands :=
    unsettled_claim_lasts actions id horder ha hclaim hb hagain hstands
  failed _ _ _ _ _ _ _ _ horder ha hclaim hbefore hafter hfail hlive hb hagain :=
    backoff_after_failure actions id horder ha hclaim hbefore hafter hfail hlive hb hagain
  postponed _ _ _ _ _ _ _ horder ha hbefore hafter hpostpone hb hagain :=
    backoff_after_postponement actions id horder ha hbefore hafter hpostpone hb hagain
  alone _ _ _ ha hb := live_claims_alone actions id ha hb

end

/-- A publisher claims a parcel and stops, and another one takes it over when the claim runs out. -/
def parcelTakenOver : List (Action Unit (Shift Unit)) :=
  ticking (epoch.after (Span.ofSeconds 300)) 1 2 (.ok ()) ++ ticking epoch 0 2 (.ok ()) ++
    posted 1 (parcel 1 none)

theorem parcel_taken_over_in_time :
    ∃ first second a b claimed again,
      [second, first].Sublist ((publishing Unit fun _ => true).world parcelTakenOver).history ∧
      first.worker = some a ∧ first.claim? ⟨1⟩ = some claimed ∧
      second.worker = some b ∧ second.claim? ⟨1⟩ = some again ∧
      second.before.get? ⟨1⟩ = some claimed ∧
      a.task.now.after a.task.publisher.settings.claimTimeout ≤ b.task.now := by
  have hspaced : Spaced ⟨1⟩ ((publishing Unit fun _ => true).world parcelTakenOver).history :=
    claims_spaced parcelTakenOver ⟨1⟩
  have hrun : (((publishing Unit fun _ => true).world parcelTakenOver).history[0]?.any fun second =>
      ((publishing Unit fun _ => true).world parcelTakenOver).history[2]?.any fun first =>
        first.worker.isSome && second.worker.isSome && (first.claim? ⟨1⟩).isSome &&
          (second.claim? ⟨1⟩).isSome && second.before.get? ⟨1⟩ == first.claim? ⟨1⟩) = true := by
    decide +kernel
  generalize ((publishing Unit fun _ => true).world parcelTakenOver).history = history
    at hspaced hrun
  obtain ⟨second, hsecond, hrun⟩ := (Option.any_eq_true _ _).1 hrun
  obtain ⟨first, hfirst, hrun⟩ := (Option.any_eq_true _ _).1 hrun
  simp only [Bool.and_eq_true, beq_iff_eq, Option.isSome_iff_exists] at hrun
  obtain ⟨⟨⟨⟨⟨a, ha⟩, ⟨b, hb⟩⟩, ⟨claimed, hclaim⟩⟩, ⟨again, hagain⟩⟩, hstands⟩ := hrun
  rw [hclaim] at hstands
  have horder : [second, first].Sublist history := by
    rcases history with _ | ⟨newest, _ | ⟨between, _ | ⟨oldest, rest⟩⟩⟩
    · cases hsecond
    · cases hfirst
    · cases hfirst
    · obtain rfl := Option.some.inj hsecond
      obtain rfl := Option.some.inj hfirst
      simp
  exact ⟨first, second, a, b, claimed, again, horder, ha, hclaim, hb, hagain, hstands,
    hspaced.unsettled first second a b claimed again horder ha hclaim hb hagain hstands⟩

end Courier
