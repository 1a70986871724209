import Courier.Proofs.Publishing.Causes
import Courier.Proofs.Publishing.InTurn
import Courier.Proofs.Publishing.Rounds
/-
Causes that fail for a while.  When ticks run one after another and time does not run back, a row that
waits is put off no more often than its cause has failed, so that it never becomes a dead letter
before its cause does.  Within a leap second a deferral may end sooner than a retry that was due before
it, and then the row can be given up while its cause may still be delivered.
-/
namespace Courier

variable {κ τ ρ : Type}

instance (cause row : Row) : Decidable (cause.Causes row) :=
  inferInstanceAs (Decidable (_ ∧ _))

instance (a b : Row) : Decidable (a.Precedes b) :=
  inferInstanceAs (Decidable (_ ∧ _))

instance (row : Row) (rows : List Row) : Decidable (row.Uncaused rows) :=
  inferInstanceAs (Decidable (∀ cause ∈ rows, ¬ cause.Causes row))

instance (history : List (Moment κ τ)) (row other : RowId) :
    Decidable (CommittedBy history row other) :=
  inferInstanceAs (Decidable (∀ moment ∈ history, _ → _))

/-- All causes of the row were committed no later than the row itself, come before it, and have no
causes that are outgoing rows. -/
def World.Dependent (world : World κ τ ρ) (row : Row) : Prop :=
  ∀ cause ∈ world.store.rows, cause.Causes row →
    CommittedBy world.history cause.id row.id ∧ cause.Precedes row ∧
      cause.Uncaused world.store.rows

instance (world : World κ τ ρ) (row : Row) : Decidable (world.Dependent row) :=
  inferInstanceAs (Decidable (∀ cause ∈ world.store.rows, _ → _))

/-- The row was deferred no more often than each of its causes has failed that may still be
delivered, and it is a dead letter for its deferrals only along with one of its causes. -/
structure Row.KeepsPace (M : Count) (rows : List Row) (row : Row) : Prop where
  le : ∀ cause ∈ rows, cause.Causes row → cause.status ≠ .processed → cause.deadLettered = false →
    row.deferrals ≤ cause.retries
  dead : row.deadLettered = true → M ≤ row.deferrals →
    ∃ cause ∈ rows, cause.Causes row ∧ cause.deadLettered = true

/-- Publishers that share a ceiling and a backoff, and a store that does not fail. -/
abbrev pacing (κ : Type) (M : Count) (backoff : Backoff) :
    Rules κ (Shift κ) (Except PublisherError TickReport) :=
  (publishing κ fun settings => settings.maxRetries == M && settings.backoff == backoff).faultless

/-- The instants of the ticks that have called, call by call, latest first. -/
def instants (history : List (Moment κ (Shift κ))) : List Instant :=
  history.filterMap fun moment => moment.worker.map (·.task.now)

/-- No tick is given an earlier instant than those before it. -/
def Advancing (history : List (Moment κ (Shift κ))) : Prop :=
  (instants history).Pairwise fun later earlier => earlier ≤ later

instance (history : List (Moment κ (Shift κ))) : Decidable (Advancing history) :=
  inferInstanceAs (Decidable (List.Pairwise _ _))

/-- No tick is given an instant within a leap second. -/
def Plain (history : List (Moment κ (Shift κ))) : Prop :=
  ∀ now ∈ instants history, now.leap = false

instance (history : List (Moment κ (Shift κ))) : Decidable (Plain history) :=
  inferInstanceAs (Decidable (∀ now ∈ instants history, now.leap = false))

section instants

variable {moment : Moment κ (Shift κ)} {past : List (Moment κ (Shift κ))}

theorem instants_of_worker {worker : Worker (Shift κ)} (h : moment.worker = some worker) :
    instants (moment :: past) = worker.task.now :: instants past := by
  simp [instants, h]

theorem instants_of_bystander (h : moment.worker = none) :
    instants (moment :: past) = instants past := by
  simp [instants, h]

theorem instants_subset : instants past ⊆ instants (moment :: past) := by
  intro now hnow
  cases hworker : moment.worker with
  | none => rwa [instants_of_bystander hworker]
  | some worker =>
      rw [instants_of_worker hworker]
      exact List.mem_cons_of_mem _ hnow

theorem Advancing.tail (h : Advancing (moment :: past)) : Advancing past := by
  unfold Advancing at h ⊢
  cases hworker : moment.worker with
  | none => rwa [instants_of_bystander hworker] at h
  | some worker =>
      rw [instants_of_worker hworker] at h
      exact (List.pairwise_cons.1 h).2

theorem Plain.tail (h : Plain (moment :: past)) : Plain past :=
  fun now hnow => h now (instants_subset hnow)

/-- There is an instant after all ticks. -/
theorem Advancing.exists_after {history : List (Moment κ (Shift κ))} (h : Advancing history)
    (hplain : Plain history) :
    ∃ now : Instant, now.leap = false ∧ ∀ earlier ∈ instants history, earlier ≤ now := by
  unfold Advancing at h
  unfold Plain at hplain
  cases hinstants : instants history with
  | nil => exact ⟨epoch, rfl, fun _ hearlier => nomatch hearlier⟩
  | cons latest before =>
      rw [hinstants] at h hplain
      refine ⟨latest, hplain latest List.mem_cons_self, fun earlier hearlier => ?_⟩
      rcases List.mem_cons.1 hearlier with rfl | hbefore
      · exact Int.le_refl _
      · exact (List.pairwise_cons.1 h).1 earlier hbefore

end instants

/-- All causes of the row with a number were committed no later than the row itself. -/
def Tracked (store : Store) (history : List (Moment κ τ)) (id : RowId) : Prop :=
  ∀ row ∈ store.rows, row.id = id → ∀ cause ∈ store.rows, cause.Causes row →
    CommittedBy history cause.id id

section tracked

variable {rules : Rules κ τ ρ} {earlier : List (Action κ τ)} {moment : Moment κ τ}

/-- Whatever is called, the rows are still there. -/
theorem World.kept_after (hmakes : rules.Makes (rules.world earlier) moment) :
    Kept (rules.world earlier).store.rows moment.after.rows := by
  intro row hrow
  have hdistinct := (World.sound rules earlier).committed_distinct
  have hfound := (Store.get?_eq_some_iff hdistinct).2 ⟨hrow, rfl⟩
  obtain ⟨after, hafter, hturn⟩ := World.get?_after hmakes hfound
  refine ⟨after, (Store.mem_of_get? hafter).1, ?_⟩
  rcases hturn with rfl | ⟨change, _, _, rfl⟩
  · exact .refl _
  · exact row.sameMessage_apply change

theorem Tracked.before {id : RowId}
    (h : Tracked moment.after (moment :: (rules.world earlier).history) id)
    (hmakes : rules.Makes (rules.world earlier) moment) :
    Tracked (rules.world earlier).store (rules.world earlier).history id := by
  intro row hrow hid cause hcause hcauses made hmade hthere
  have hkept := World.kept_after hmakes
  obtain ⟨after, hafter, hsame⟩ := hkept row hrow
  obtain ⟨later, hlater, hagain⟩ := hkept cause hcause
  have hcommitted := h after hafter (hsame.id.trans hid) later hlater
    ((hagain.causes_iff hsame).2 hcauses)
  rw [hagain.id] at hcommitted
  exact hcommitted made (List.mem_cons_of_mem _ hmade) hthere

/-- A call that is no change commits no cause of a row that was there with all its causes. -/
theorem Tracked.joined {tracked : RowId → Prop} (hlasting : rules.clears = false)
    (hmakes : rules.Makes (rules.world earlier) moment) (haside : moment.call.isSwap = false)
    (htracked : ∀ id, tracked id →
      Tracked moment.after (moment :: (rules.world earlier).history) id) :
    joining tracked (rules.world earlier).store moment.after := by
  obtain ⟨added, hmore, hfresh⟩ := World.added_aside hlasting hmakes haside
  have hdistinct : DistinctNumbers moment.after.rows := hmakes.sound_after.committed_distinct
  rw [hmakes.before] at hmore
  have hold : ∀ row ∈ (rules.world earlier).store.rows, row ∈ moment.after.rows :=
    fun row hrow => hmore.mem_iff.2 (List.mem_append_left _ hrow)
  refine ⟨fun _ => hdistinct, hold, fun row hrow => ?_, ?_⟩
  · exact (List.mem_append.1 (hmore.mem_iff.1 hrow)).imp id (hfresh row)
  · intro row hrow htold cause hcause hcauses
    by_contra hnew
    have hcommitted := htracked row.id htold row (hold row hrow) rfl cause hcause hcauses
    have hmissing : (rules.world earlier).store.get? cause.id = none := by
      refine Store.get?_eq_none_iff.2 fun other hother hid => hnew ?_
      rwa [← hdistinct.eq_of_id_eq (hold other hother) hcause hid]
    have hthere : ((rules.world earlier).store.get? row.id).isSome = true := by
      rw [(Store.get?_eq_some_iff (World.sound rules earlier).committed_distinct).2 ⟨hrow, rfl⟩]
      rfl
    exact not_committedBy_of_new hlasting hthere hmissing
      fun made hmade => hcommitted made (List.mem_cons_of_mem _ hmade)

end tracked

section pacing

variable {M : Count} {backoff : Backoff} {tracked : RowId → Prop} {earlier : List (Action κ (Shift κ))}
  {moment : Moment κ (Shift κ)}

/-- Whoever calls has the ceiling and the backoff that are shared. -/
theorem pacing_shared
    (hmakes : (pacing κ M backoff).Makes ((pacing κ M backoff).world earlier) moment)
    {worker : Worker (Shift κ)} (hworker : moment.worker = some worker) :
    0 < M ∧ worker.task.publisher.settings.maxRetries = M ∧
      worker.task.publisher.settings.backoff = backoff := by
  obtain ⟨others, _, hwide⟩ := (Rules.faultless_within _).makes hmakes
  obtain ⟨husable, hshared⟩ := publishing_eligible hwide hworker
  obtain ⟨hmax, hbackoff⟩ := Bool.and_eq_true_iff.1 hshared
  exact ⟨eq_of_beq hmax ▸ (PublisherSettings.usable husable).1, eq_of_beq hmax, eq_of_beq hbackoff⟩

theorem pacing_aside
    (hmakes : (pacing κ M backoff).Makes ((pacing κ M backoff).world earlier) moment)
    (hnobody : moment.worker = none) : moment.call.isSwap = false := by
  have hothers := hmakes.bystander hnobody
  simp only [publishing, Rules.faultless, Bool.and_eq_true, Bool.not_eq_true'] at hothers
  exact hothers.1

/-- What a tick finds when it begins. -/
def expected (tracked : RowId → Prop) (M : Count) (backoff : Backoff) (shift : Shift κ)
    (store : Store) : Prop :=
  (shift.publisher.settings.maxRetries = M ∧ shift.publisher.settings.backoff = backoff) ∧
    AtPace tracked M backoff shift.now [] store

theorem pacing_follows (hM : 0 < M) (backoff : Backoff) (tracked : RowId → Prop) :
    (pacing κ M backoff).FollowsTo (fun _ => sight (joining tracked))
      (fun shift _ after => ∀ store, after store → AtPace tracked M backoff shift.now [] store)
      (expected tracked M backoff) := by
  intro shift
  have hleads : Program.Leads (joining tracked) (expected tracked M backoff shift)
      (shift.publisher.tickAt shift.now : Attempt κ PublisherError TickReport)
      fun _ => AtPace tracked M backoff shift.now [] := by
    refine .since (fun store => And.left) fun hshared => ?_
    obtain ⟨hmax, hbackoff⟩ := hshared
    exact (Publisher.leads_tick hM hmax hbackoff).weaken (fun _ => And.right) fun _ _ => id
  exact hleads _ fun _ => id

/-- The phase of a tick, seen as the stores that it must reckon with. -/
abbrev World.sighted (world : World κ (Shift κ) ρ) (tracked : RowId → Prop) (M : Count)
    (backoff : Backoff) : Worker (Shift κ) → Store → Prop :=
  world.phase (fun _ => sight (joining tracked)) (expected tracked M backoff)

theorem World.sighted_record {world : World κ (Shift κ) ρ} {worker : Worker (Shift κ)}
    (hworker : moment.worker = some worker) (hbefore : moment.before = world.store)
    (hfaithful : moment.Faithful) (h : world.sighted tracked M backoff worker world.store) :
    (world.record moment).sighted tracked M backoff worker moment.after := by
  obtain ⟨manner, hmishap, hresponse⟩ := hfaithful
  rw [hbefore] at hresponse
  rw [World.sighted, World.phase_record, if_pos (Moment.isBy_iff.2 ⟨worker, hworker, rfl⟩)]
  exact ⟨world.store, manner, moment.after, h, hmishap, hresponse.symm, Joined.refl _⟩

/-- Between ticks the rows are in pace, and in the middle of a tick they are as it reckons. -/
structure Watched (tracked : RowId → Prop) (M : Count) (backoff : Backoff)
    (world : World κ (Shift κ) ρ) : Prop where
  calm : (∀ number, world.Resting number) → ∀ now : Instant, now.leap = false →
    (∀ earlier ∈ instants world.history, earlier ≤ now) → AtPace tracked M backoff now [] world.store
  seen : ∀ worker call next, world.jobs[worker.number]? = some ⟨worker.task, .ask call next⟩ →
    ¬ world.Resting worker.number → world.sighted tracked M backoff worker world.store

namespace Watched

/-- Whoever is about to call, while nobody else is in the middle of his calls, reckons with the store
as it is. -/
theorem ready {world : World κ (Shift κ) ρ} (h : Watched tracked M backoff world)
    {worker : Worker (Shift κ)} {call : Call κ} {next : call.Answer → Program κ ρ}
    (hjob : world.jobs[worker.number]? = some ⟨worker.task, .ask call next⟩)
    (hothers : ∀ other, other ≠ worker.number → world.Resting other)
    (hshared : worker.task.publisher.settings.maxRetries = M ∧
      worker.task.publisher.settings.backoff = backoff)
    (hplain : worker.task.now.leap = false)
    (hnow : ∀ earlier ∈ instants world.history, earlier ≤ worker.task.now) :
    world.sighted tracked M backoff worker world.store := by
  by_cases hresting : world.Resting worker.number
  · have hall : ∀ number, world.Resting number := by
      intro number
      by_cases hsame : number = worker.number
      · rw [hsame]
        exact hresting
      · exact hothers number hsame
    have hnever := (hresting _ hjob).resolve_left (by rintro ⟨_, ⟨⟩⟩)
    rw [World.sighted, World.phase, World.Protocol.phase_eq_first hnever]
    exact ⟨hshared, h.calm hall _ hplain hnow⟩
  · exact h.seen worker call next hjob hresting

theorem start (h : Watched tracked M backoff ((pacing κ M backoff).world earlier)) (hM : 0 < M)
    (job : Job κ (Shift κ) (Except PublisherError TickReport)) :
    Watched tracked M backoff { (pacing κ M backoff).world earlier with
      jobs := ((pacing κ M backoff).world earlier).jobs ++ [job] } := by
  have hkeeping := World.keeping (pacing_follows hM backoff tracked) earlier
  generalize (pacing κ M backoff).world earlier = world at h hkeeping
  have hresting : ∀ number,
      World.Resting { world with jobs := world.jobs ++ [job] } number ↔ world.Resting number := by
    intro number
    rcases Nat.lt_or_ge number world.jobs.length with hlt | hge
    · exact World.resting_congr (List.getElem?_append_left hlt) Iff.rfl
    · have hnever := hkeeping.isBy_eq_false hge
      exact ⟨fun _ => World.resting_of_length_le hge, fun _ _ _ => Or.inr hnever⟩
  constructor
  · intro hall
    exact h.calm fun number => (hresting number).1 (hall number)
  · intro worker call next hjob hbusy
    rw [hresting] at hbusy
    have hlt : worker.number < world.jobs.length :=
      Nat.lt_of_not_le fun hge => hbusy (World.resting_of_length_le hge)
    exact h.seen worker call next ((List.getElem?_append_left hlt).symm.trans hjob) hbusy

/-- Somebody else makes a call. -/
theorem call (h : Watched tracked M backoff ((pacing κ M backoff).world earlier)) (hM : 0 < M)
    (hmakes : (pacing κ M backoff).Makes ((pacing κ M backoff).world earlier) moment)
    (hnobody : moment.worker = none)
    (htracked : ∀ id, tracked id →
      Tracked moment.after (moment :: ((pacing κ M backoff).world earlier).history) id) :
    Watched tracked M backoff (((pacing κ M backoff).world earlier).record moment) := by
  have hjoins := Tracked.joined rfl hmakes (pacing_aside hmakes hnobody) htracked
  generalize (pacing κ M backoff).world earlier = world at h hjoins
  have hby : ∀ number, moment.isBy number = false := by simp [Moment.isBy, hnobody]
  have hresting : ∀ number, (world.record moment).Resting number ↔ world.Resting number :=
    fun number => World.resting_record rfl (hby number)
  constructor
  · intro hall now hnow hpast
    refine AtPace.join (h.calm (fun number => (hresting number).1 (hall number)) now hnow ?_) hM hjoins
    exact fun earlier hearlier => hpast earlier (instants_subset hearlier)
  · intro worker call next hjob hbusy
    rw [World.sighted, World.phase_record, hby]
    have hseen := h.seen worker call next hjob fun hrest => hbusy ((hresting _).2 hrest)
    refine sight_closed ?_ ?_ hseen hjoins
    · exact fun hone htwo => Joined.trans hone htwo
    · exact fun hfirst hmore => ⟨hfirst.1, hfirst.2.join hM hmore⟩

/-- A tick makes a call. -/
theorem work (h : Watched tracked M backoff ((pacing κ M backoff).world earlier))
    {worker : Worker (Shift κ)} {call : Call κ}
    {next : call.Answer → Program κ (Except PublisherError TickReport)} {manner : Manner}
    (hjob : ((pacing κ M backoff).world earlier).jobs[worker.number]? =
      some ⟨worker.task, .ask call next⟩)
    (hallows : (pacing κ M backoff).allows ((pacing κ M backoff).world earlier) call manner = true)
    (hothers : ∀ other, other ≠ worker.number → ((pacing κ M backoff).world earlier).Resting other)
    (hadvancing : Advancing (((pacing κ M backoff).world earlier).moment (some worker) call manner ::
      ((pacing κ M backoff).world earlier).history))
    (hplain : Plain (((pacing κ M backoff).world earlier).moment (some worker) call manner ::
      ((pacing κ M backoff).world earlier).history)) :
    Watched tracked M backoff
      { ((pacing κ M backoff).world earlier).record
          (((pacing κ M backoff).world earlier).moment (some worker) call manner) with
        jobs := ((pacing κ M backoff).world earlier).jobs.set worker.number ⟨worker.task,
          next (((pacing κ M backoff).world earlier).moment (some worker) call manner).answer⟩ } := by
  have hmakes := Rules.Makes.of_work hjob hallows
  obtain ⟨hM, hshared⟩ := pacing_shared hmakes rfl
  have hkeeping := (World.keeping (pacing_follows hM backoff tracked) earlier).work manner hjob
  have hfaithful := Rules.Makes.faithful hmakes
  generalize (pacing κ M backoff).world earlier = world at *
  have hby : (world.moment (some worker) call manner).isBy worker.number = true :=
    Moment.isBy_iff.2 ⟨worker, rfl, rfl⟩
  have hself : (world.jobs.set worker.number ⟨worker.task, next (world.moment (some worker) call
      manner).answer⟩)[worker.number]? = some ⟨worker.task, _⟩ :=
    List.getElem?_set_self (List.getElem?_eq_some_iff.1 hjob).1
  have hnow := hplain worker.task.now List.mem_cons_self
  have hready := h.ready hjob hothers hshared hnow (List.pairwise_cons.1 hadvancing).1
  have hsighted := World.sighted_record rfl rfl hfaithful hready
  constructor
  · intro hall now hplainly hpast
    rcases hall worker.number _ hself with ⟨value, hdone⟩ | hnever
    · change next _ = .done value at hdone
      have hended := hkeeping.ended (hself.trans (by rw [hdone]))
      exact Paced.later (hended _ hsighted) hnow hplainly (hpast _ List.mem_cons_self)
    · rw [hnever _ List.mem_cons_self] at hby
      cases hby
  · intro other asked rest hasked hbusy
    by_cases hsame : worker.number = other.number
    · obtain rfl := Worker.eq_of_jobs hself hasked hsame
      exact hsighted
    · refine absurd ((World.resting_record (List.getElem?_set_ne hsame) ?_).2
        (hothers other.number (Ne.symm hsame))) hbusy
      simp [World.moment, Moment.isBy, hsame]

end Watched

/-- However ticks and commits follow one another, the rows are in pace between the ticks.  What is told
of may be fewer and fewer rows, since causes may be committed later on; the rows that are told of in
the end were told of all the time. -/
theorem pacing_watched (hM : 0 < M) (actions : List (Action κ (Shift κ)))
    (hturns : (pacing κ M backoff).InTurn actions)
    (hadvancing : Advancing ((pacing κ M backoff).world actions).history)
    (hplain : Plain ((pacing κ M backoff).world actions).history)
    (htracked : ∀ id, tracked id → Tracked ((pacing κ M backoff).world actions).store
      ((pacing κ M backoff).world actions).history id) :
    Watched tracked M backoff ((pacing κ M backoff).world actions) := by
  induction actions with
  | nil =>
      constructor
      · exact fun _ now _ _ => Paced.nothing
      · intro worker call next hjob
        cases hjob
  | cons action earlier ih =>
      have hnext := (pacing κ M backoff).step_next ((pacing κ M backoff).world earlier) action
      change Advancing ((pacing κ M backoff).step _ action).history at hadvancing
      change Plain ((pacing κ M backoff).step _ action).history at hplain
      change ∀ id, tracked id → Tracked ((pacing κ M backoff).step _ action).store
        ((pacing κ M backoff).step _ action).history id at htracked
      change Watched tracked M backoff ((pacing κ M backoff).step _ action)
      generalize hstep : (pacing κ M backoff).step ((pacing κ M backoff).world earlier) action = next
        at hnext hadvancing hplain htracked ⊢
      cases hnext with
      | idle => exact ih hturns.1 hadvancing hplain htracked
      | started task hadmits => exact (ih hturns.1 hadvancing hplain htracked).start hM _
      | worked worker call next manner hjob hallows =>
          have hmakes := Rules.Makes.of_work hjob hallows
          have hbefore := ih hturns.1 hadvancing.tail hplain.tail
            fun id htold => (htracked id htold).before hmakes
          exact hbefore.work hjob hallows (hturns.others rfl hstep) hadvancing hplain
      | called call manner hbystander hallows =>
          have hmakes := Rules.Makes.of_call hbystander hallows
          have hbefore := ih hturns.1 hadvancing.tail hplain.tail
            fun id htold => (htracked id htold).before hmakes
          exact hbefore.call hM hmakes rfl htracked
      | cleared hclears => cases hclears

/-- Publishers with a ceiling of zero do not run, and nothing happens to the rows. -/
theorem pacing_untouched (hM : ¬ 0 < M) (actions : List (Action κ (Shift κ))) :
    ∀ row ∈ ((pacing κ M backoff).world actions).store.rows,
      row.deferrals = 0 ∧ row.deadLettered = false := by
  refine (World.rows_hold rfl (fun _ row => row.deferrals = 0 ∧ row.deadLettered = false) ?_
    (fun _ _ _ h => h) ?_ actions).1
  · exact fun _ _ _ _ => ⟨rfl, rfl⟩
  · intro earlier moment change row hmakes hcall _ _ _
    cases hworker : moment.worker with
    | none =>
        have haside := pacing_aside hmakes hworker
        rw [hcall] at haside
        cases haside
    | some worker => exact absurd (pacing_shared hmakes hworker).1 hM

end pacing

/-- When publishers share a ceiling and a backoff, the store does not fail, ticks run one after another
and are given one instant after another, none of them within a leap second, then whatever a bus and
the handlers answer: a row keeps pace with its causes, if all of them were committed no later than the
row, come before it, and have no causes themselves. -/
theorem dependents_keep_pace (M : Count) (backoff : Backoff) (actions : List (Action κ (Shift κ)))
    (hturns : (pacing κ M backoff).InTurn actions)
    (hover : ∀ number, ((pacing κ M backoff).world actions).Resting number)
    (hadvancing : Advancing ((pacing κ M backoff).world actions).history)
    (hplain : Plain ((pacing κ M backoff).world actions).history) {row : Row}
    (hrow : row ∈ ((pacing κ M backoff).world actions).store.rows)
    (hdependent : ((pacing κ M backoff).world actions).Dependent row) :
    row.KeepsPace M ((pacing κ M backoff).world actions).store.rows := by
  by_cases hM : 0 < M
  · obtain ⟨now, hnow, hafter⟩ := hadvancing.exists_after hplain
    have hwatched : Watched (Tracked ((pacing κ M backoff).world actions).store
        ((pacing κ M backoff).world actions).history) M backoff ((pacing κ M backoff).world actions) :=
      pacing_watched hM actions hturns hadvancing hplain fun _ => id
    have hpaced := hwatched.calm hover now hnow hafter
    generalize (pacing κ M backoff).world actions = world at hrow hdependent hpaced ⊢
    have htold : Tracked world.store world.history row.id := by
      intro same hsame hid cause hcause hcauses
      obtain rfl := hpaced.distinct.eq_of_id_eq hsame hrow hid
      exact (hdependent cause hcause hcauses).1
    have hfollows : row.Follows world.store.rows :=
      fun cause hcause hcauses => (hdependent cause hcause hcauses).2
    constructor
    · intro cause hcause hcauses hopen hlive
      have hopen := Row.isTerminal_eq_false_iff.2 ⟨hopen, hlive⟩
      exact (hpaced.spared row hrow htold hfollows cause hcause hcauses hopen).le
    · exact hpaced.mourned row hrow htold hfollows
  · obtain ⟨hdeferrals, hlive⟩ := pacing_untouched hM actions row hrow
    constructor
    · intro cause _ _ _ _
      rw [hdeferrals]
      exact UInt32.zero_le
    · intro hdead
      rw [hlive] at hdead
      cases hdead

/-- A parcel fails once while the bus is away, and one that it has caused is deferred once. -/
def parcelsWaiting : List (Action Unit (Shift Unit)) :=
  let away := Except.error (BusError.transportUnavailable "no route")
  ticking (epoch.after (Span.ofMillis 100)) 1 9 away ++
    posted 2 (parcel 2 (some (parcel 1 none).messageId)) ++
    ticking epoch 0 9 away ++ posted 1 (parcel 1 none)

/-- The backoff of publishers that are given none. -/
abbrev usual : Backoff := PublisherSettings.backoff {}

theorem parcel_waiting :
    ∃ row ∈ ((pacing Unit 2 usual).world parcelsWaiting).store.rows,
      ∃ cause ∈ ((pacing Unit 2 usual).world parcelsWaiting).store.rows,
        cause.Causes row ∧ cause.retries = 1 ∧ row.deferrals = 1 ∧
        ((pacing Unit 2 usual).world parcelsWaiting).Dependent row ∧
        row.KeepsPace 2 ((pacing Unit 2 usual).world parcelsWaiting).store.rows := by
  have hrows : ∃ row ∈ ((pacing Unit 2 usual).world parcelsWaiting).store.rows,
      ∃ cause ∈ ((pacing Unit 2 usual).world parcelsWaiting).store.rows,
        cause.Causes row ∧ cause.retries = 1 ∧ row.deferrals = 1 ∧
        ((pacing Unit 2 usual).world parcelsWaiting).Dependent row := by
    decide +kernel
  obtain ⟨row, hrow, cause, hcause, hcauses, hretries, hdeferrals, hdependent⟩ := hrows
  exact ⟨row, hrow, cause, hcause, hcauses, hretries, hdeferrals, hdependent,
    dependents_keep_pace 2 usual parcelsWaiting (by decide +kernel) (by decide +kernel)
      (by decide +kernel) (by decide +kernel) hrow hdependent⟩

/-- The beginning of the leap second at the end of 2016, and half a second later. -/
def leapBegins : Instant := ⟨1483228799000000000, true, by decide, by decide, by decide⟩

def leapHalfway : Instant := ⟨1483228799500000000, true, by decide, by decide, by decide⟩

/-- A parcel fails just before a leap second, and one that it has caused is deferred twice within. -/
def parcelsInLeapSecond : List (Action Unit (Shift Unit)) :=
  let away := Except.error (BusError.transportUnavailable "no route")
  ticking leapHalfway 2 9 away ++ ticking leapBegins 1 9 away ++
    posted 2 (parcel 2 (some (parcel 1 none).messageId)) ++
    ticking (epoch.after (Span.ofMillis 1483228799900)) 0 9 away ++ posted 1 (parcel 1 none)

/-- The second parcel is given up, though the first one may still be delivered. -/
theorem parcel_given_up_early :
    (pacing Unit 2 usual).InTurn parcelsInLeapSecond ∧
      (∀ number, ((pacing Unit 2 usual).world parcelsInLeapSecond).Resting number) ∧
      Advancing ((pacing Unit 2 usual).world parcelsInLeapSecond).history ∧
      ¬ ∀ row ∈ ((pacing Unit 2 usual).world parcelsInLeapSecond).store.rows,
        ((pacing Unit 2 usual).world parcelsInLeapSecond).Dependent row →
        row.KeepsPace 2 ((pacing Unit 2 usual).world parcelsInLeapSecond).store.rows := by
  refine ⟨by decide +kernel, by decide +kernel, by decide +kernel, fun hall => ?_⟩
  have hgiven : ∃ row ∈ ((pacing Unit 2 usual).world parcelsInLeapSecond).store.rows,
      ((pacing Unit 2 usual).world parcelsInLeapSecond).Dependent row ∧
      (row.deadLettered = true ∧ 2 ≤ row.deferrals) ∧
      ∀ cause ∈ ((pacing Unit 2 usual).world parcelsInLeapSecond).store.rows,
        cause.deadLettered = true → ¬ cause.Causes row := by
    decide +kernel
  obtain ⟨row, hrow, hdependent, ⟨hdead, hdeferrals⟩, hlive⟩ := hgiven
  obtain ⟨cause, hcause, hcauses, hmourned⟩ := (hall row hrow hdependent).dead hdead hdeferrals
  exact hlive cause hcause hmourned hcauses

end Courier
