import Courier.Proofs.Interleaving.Protocol
/-
Histories.  A step of a world makes one call or none.  As long as nothing is cleared, every call
finds the store as the call before it has left it, and a row that is committed stays, though it may
change.
-/
namespace Courier

variable {κ τ ρ σ : Type}

theorem Moment.isBy_iff {moment : Moment κ τ} {number : Nat} :
    moment.isBy number = true ↔ ∃ worker, moment.worker = some worker ∧ worker.number = number := by
  simp [isBy, Option.any_eq_true]

/-- A call that somebody may make in a world, as it is answered there. -/
structure Rules.Makes (rules : Rules κ τ ρ) (world : World κ τ ρ) (moment : Moment κ τ) : Prop where
  made : ∃ worker call manner, moment = world.moment worker call manner
  may : world.mayCall moment.call = true
  mishap : ∃ manner : Manner, manner.mishap.all (rules.mishap moment.call) = true ∧
    (moment.answer, moment.after) = moment.before.respond manner moment.call
  worker : ∀ worker, moment.worker = some worker →
    ∃ next, world.jobs[worker.number]? = some ⟨worker.task, .ask moment.call next⟩
  bystander : moment.worker = none → rules.bystander moment.call = true

namespace Rules

variable {rules : Rules κ τ ρ} {world next : World κ τ ρ} {moment : Moment κ τ}

theorem Makes.before (h : rules.Makes world moment) : moment.before = world.store := by
  obtain ⟨worker, call, manner, rfl⟩ := h.made
  rfl

theorem Makes.effect (h : rules.Makes world moment) : moment.Effect world.transactions := by
  obtain ⟨worker, call, manner, rfl⟩ := h.made
  exact world.moment_effect worker call manner h.may

theorem Makes.plausible (h : rules.Makes world moment) : moment.call.Plausible moment.answer := by
  obtain ⟨worker, call, manner, rfl⟩ := h.made
  exact world.store.respond_plausible manner call

/-- The rows that are due are committed. -/
theorem Makes.committed_of_due (h : rules.Makes world moment) {query : DueQuery}
    (hdue : moment.call = .due query) {row : Row} (hshown : row ∈ moment.shown) :
    row ∈ world.store.rows := by
  obtain ⟨worker, call, manner, rfl⟩ := h.made
  change call = .due query at hdue
  subst hdue
  unfold Moment.shown at hshown
  rcases world.answer_due worker query manner with heq | ⟨error, heq⟩
  · rw [heq] at hshown
    exact (Store.mem_due hshown).1
  · rw [heq] at hshown
    cases hshown

/-- A change that is answered with a row has brought that row about. -/
theorem Makes.changed_of_shown (h : rules.Makes world moment) (hswap : moment.call.isSwap = true)
    {row : Row} (hshown : row ∈ moment.shown) :
    ∃ old change, world.store.get? row.id = some old ∧ row = old.apply change ∧
      moment.after = { world.store with rows := Store.changeRow world.store.rows row } := by
  obtain ⟨worker, call, manner, rfl⟩ := h.made
  cases call with
  | swap change =>
      rcases swap_response (κ := κ) (manner.onStore_cases world.store (world.store.swap change).swap)
        with ⟨_, hnone⟩ | ⟨old, hold, _, hafter, hseen⟩
      · have hempty : (world.moment worker (.swap change) manner).shown = [] := hnone
        rw [hempty] at hshown
        cases hshown
      · obtain rfl := hseen row hshown
        refine ⟨old, change, ?_, rfl, hafter⟩
        rw [← hold, ← (Store.mem_of_get? hold).2]
        rfl
  | _ => cases hswap

theorem Makes.of_work {worker : Worker τ} {call : Call κ} {next : call.Answer → Program κ ρ}
    {manner : Manner} (hjob : world.jobs[worker.number]? = some ⟨worker.task, .ask call next⟩)
    (hallows : rules.allows world call manner = true) :
    rules.Makes world (world.moment (some worker) call manner) where
  made := ⟨some worker, call, manner, rfl⟩
  may := (Bool.and_eq_true_iff.1 hallows).1
  mishap := ⟨manner, (Bool.and_eq_true_iff.1 hallows).2, rfl⟩
  worker other hother := by
    obtain rfl := Option.some.inj hother
    exact ⟨next, hjob⟩
  bystander hnone := nomatch hnone

theorem Makes.of_call {call : Call κ} {manner : Manner} (hbystander : rules.bystander call = true)
    (hallows : rules.allows world call manner = true) :
    rules.Makes world (world.moment none call manner) where
  made := ⟨none, call, manner, rfl⟩
  may := (Bool.and_eq_true_iff.1 hallows).1
  mishap := ⟨manner, (Bool.and_eq_true_iff.1 hallows).2, rfl⟩
  worker _ hother := nomatch hother
  bystander _ := hbystander

/-- Where nothing is cleared, a step starts a job, makes a call or does nothing. -/
theorem Next.call_or_none (h : rules.Next world next) (hlasting : rules.clears = false) :
    (∃ jobs, next = { world with jobs := jobs }) ∨
      ∃ moment jobs, rules.Makes world moment ∧ next = { world.record moment with jobs := jobs } := by
  cases h with
  | idle => exact Or.inl ⟨world.jobs, rfl⟩
  | started task hadmits => exact Or.inl ⟨_, rfl⟩
  | worked worker call next manner hjob hallows =>
      exact Or.inr ⟨_, _, Makes.of_work hjob hallows, rfl⟩
  | called call manner hbystander hallows =>
      exact Or.inr ⟨_, world.jobs, Makes.of_call hbystander hallows, rfl⟩
  | cleared hclears =>
      rw [hlasting] at hclears
      cases hclears

/-- A step adds one call to the history or none, and a worker's call is made by the job that the
action names. -/
theorem step_history (rules : Rules κ τ ρ) (world : World κ τ ρ) (action : Action κ τ) :
    (rules.step world action).history = world.history ∨
      ∃ moment, rules.Makes world moment ∧
        (rules.step world action).history = moment :: world.history ∧
        ∀ worker, moment.worker = some worker → ∃ manner, action = .work worker.number manner := by
  cases action with
  | start task =>
      refine Or.inl ?_
      simp only [step]
      split <;> rfl
  | work number manner =>
      simp only [step]
      split
      · rename_i task call next hjob
        split
        · have hnext : world.jobs[(⟨number, task⟩ : Worker τ).number]? =
              some ⟨task, .ask call next⟩ := hjob
          refine Or.inr ⟨_, Makes.of_work hnext ‹_›, rfl, ?_⟩
          intro worker hworker
          obtain rfl := Option.some.inj hworker
          exact ⟨manner, rfl⟩
        · exact Or.inl rfl
      · exact Or.inl rfl
  | call call manner =>
      simp only [step]
      split
      · rename_i hcalled
        obtain ⟨hbystander, hallows⟩ := Bool.and_eq_true_iff.1 hcalled
        refine Or.inr ⟨_, Makes.of_call hbystander hallows, rfl, ?_⟩
        intro worker hworker
        cases hworker
      · exact Or.inl rfl
  | clear =>
      refine Or.inl ?_
      simp only [step]
      split <;> rfl

/-- What holds of the empty store, is kept by every call and outlives a clearing holds in every
world. -/
theorem store_induction (holds : Store → List Transaction → List (Moment κ τ) → Prop)
    (hstart : holds Store.empty [] [])
    (hcall : ∀ earlier moment,
      holds (rules.world earlier).store (rules.world earlier).transactions
        (rules.world earlier).history →
      rules.Makes (rules.world earlier) moment →
      holds moment.after (moment.call.leaves (rules.world earlier).transactions moment.answer)
        (moment :: (rules.world earlier).history))
    (hclear : rules.clears = true → ∀ store transactions history,
      holds store transactions history → holds store.clear transactions history)
    (actions : List (Action κ τ)) :
    holds (rules.world actions).store (rules.world actions).transactions
      (rules.world actions).history := by
  refine Rules.world_induction
    (fun world => holds world.store world.transactions world.history) hstart ?_ actions
  intro earlier next h hnext
  cases hnext with
  | idle => exact h
  | started task hadmits => exact h
  | worked worker call next manner hjob hallows =>
      exact hcall earlier _ h (Makes.of_work hjob hallows)
  | called call manner hbystander hallows =>
      exact hcall earlier _ h (Makes.of_call hbystander hallows)
  | cleared hclears => exact hclear hclears _ _ _ h

/-- What holds of the empty store and is kept by every call holds in every world where nothing is
cleared. -/
theorem call_induction (hlasting : rules.clears = false)
    (holds : Store → List Transaction → List (Moment κ τ) → Prop) (hstart : holds Store.empty [] [])
    (hcall : ∀ earlier moment,
      holds (rules.world earlier).store (rules.world earlier).transactions
        (rules.world earlier).history →
      rules.Makes (rules.world earlier) moment →
      holds moment.after (moment.call.leaves (rules.world earlier).transactions moment.answer)
        (moment :: (rules.world earlier).history))
    (actions : List (Action κ τ)) :
    holds (rules.world actions).store (rules.world actions).transactions
      (rules.world actions).history := by
  refine store_induction holds hstart hcall (fun hclears => ?_) actions
  rw [hlasting] at hclears
  cases hclears

/-- What is kept by every call and does not depend on the store holds in every world, even if the
store is cleared. -/
theorem history_induction (holds : List Transaction → List (Moment κ τ) → Prop)
    (hstart : holds [] [])
    (hcall : ∀ earlier moment,
      holds (rules.world earlier).transactions (rules.world earlier).history →
      rules.Makes (rules.world earlier) moment →
      holds (moment.call.leaves (rules.world earlier).transactions moment.answer)
        (moment :: (rules.world earlier).history))
    (actions : List (Action κ τ)) :
    holds (rules.world actions).transactions (rules.world actions).history :=
  store_induction (fun _ => holds) hstart hcall (fun _ _ _ _ h => h) actions

/-- A worker's call is allowed in the phase that the worker is in. -/
theorem Makes.allows {earlier : List (Action κ τ)} {protocol : τ → Protocol κ σ}
    {ends : τ → ρ → σ → Prop} {first : τ → σ}
    (h : rules.Makes (rules.world earlier) moment) (hfollows : rules.FollowsTo protocol ends first)
    {worker : Worker τ} (hworker : moment.worker = some worker) :
    (protocol worker.task).allows ((rules.world earlier).phase protocol first worker)
      moment.call := by
  obtain ⟨next, hjob⟩ := h.worker worker hworker
  exact (World.keeping hfollows earlier).allows hjob

theorem Makes.sound_after {earlier : List (Action κ τ)}
    (h : rules.Makes (rules.world earlier) moment) :
    ((rules.world earlier).record moment).Sound :=
  (World.sound rules earlier).record h.before h.effect

end Rules

/-- What is staged in the open transactions is fresh. -/
theorem Moment.Effect.staged_cases {opened : List Transaction} {moment : Moment κ τ}
    (h : moment.Effect opened) {row : Row}
    (hrow : row ∈ stagedRows (moment.call.leaves opened moment.answer)) :
    row ∈ stagedRows opened ∨ ∃ id draft now, row = Row.fresh id draft now := by
  cases h with
  | quiet hstore hshown hstaged => exact Or.inl (hstaged.subset hrow)
  | changed change old hcall hold hfits hafter hshown hstaged =>
      rw [hstaged] at hrow
      exact Or.inl hrow
  | staged draft now hafter hshown hstaged =>
      rcases List.mem_cons.1 (hstaged.subset hrow) with rfl | hold
      · exact Or.inr ⟨_, draft, now, rfl⟩
      · exact Or.inl hold
  | committed tx hopen hcommit hshown hleaves =>
      rw [hleaves] at hrow
      have hmem := (stagedRows_perm hopen).mem_iff.2 (List.mem_append_right tx.rows hrow)
      exact Or.inl hmem

/-- Workers under one number are one. -/
theorem Worker.eq_of_jobs {jobs : List (Job κ τ ρ)} {a b : Worker τ} {one two : Program κ ρ}
    (ha : jobs[a.number]? = some ⟨a.task, one⟩) (hb : jobs[b.number]? = some ⟨b.task, two⟩)
    (hnumber : a.number = b.number) : a = b := by
  rw [hnumber, hb] at ha
  have htask := congrArg Job.task (Option.some.inj ha)
  obtain ⟨number, task⟩ := a
  obtain ⟨other, same⟩ := b
  simp only at hnumber htask
  rw [hnumber, htask]

namespace World

variable {rules : Rules κ τ ρ}

theorem staged_fresh (hlasting : rules.clears = false) (actions : List (Action κ τ)) {row : Row}
    (hrow : row ∈ (rules.world actions).staged) : ∃ id draft now, row = Row.fresh id draft now := by
  refine Rules.call_induction hlasting
    (fun _ transactions _ => ∀ row ∈ stagedRows transactions, ∃ id draft now,
      row = Row.fresh id draft now) ?_ ?_ actions row hrow
  · intro row hrow
    cases hrow
  · intro earlier moment h hmakes row hrow
    rcases hmakes.effect.staged_cases hrow with hold | hfresh
    · exact h row hold
    · exact hfresh

/-- A call that is no change leaves the committed rows as they are, though it may commit fresh
ones. -/
theorem added_aside (hlasting : rules.clears = false) {earlier : List (Action κ τ)}
    {moment : Moment κ τ} (hmakes : rules.Makes (rules.world earlier) moment)
    (haside : moment.call.isSwap = false) :
    ∃ added, moment.after.rows.Perm (moment.before.rows ++ added) ∧
      ∀ row ∈ added, ∃ id draft now, row = Row.fresh id draft now := by
  have hsame : moment.after.rows = moment.before.rows →
      ∃ added, moment.after.rows.Perm (moment.before.rows ++ added) ∧
        ∀ row ∈ added, ∃ id draft now, row = Row.fresh id draft now := by
    intro hrows
    refine ⟨[], ?_, fun row hrow => nomatch hrow⟩
    rw [hrows, List.append_nil]
  cases hmakes.effect with
  | quiet hstore _ _ => exact hsame (congrArg Store.rows hstore)
  | changed change row hswap =>
      rw [hswap] at haside
      cases haside
  | staged draft now hafter _ _ => exact hsame (by rw [hafter])
  | committed tx hopen hcommit _ _ _ =>
      rw [hmakes.before] at hcommit ⊢
      refine ⟨tx.rows, (sound rules earlier).committed_perm hopen hcommit, fun row hrow => ?_⟩
      exact staged_fresh hlasting earlier (List.mem_flatMap.2 ⟨tx, hopen, hrow⟩)

/-- A committed row stays when a call is made, unless the call is a change that fits it. -/
theorem get?_after {earlier : List (Action κ τ)} {moment : Moment κ τ}
    (hmakes : rules.Makes (rules.world earlier) moment) {id : RowId} {row : Row}
    (hrow : (rules.world earlier).store.get? id = some row) :
    ∃ after, moment.after.get? id = some after ∧ (after = row ∨
      ∃ change, moment.call = .swap change ∧ change.fits row = true ∧ after = row.apply change) := by
  obtain ⟨hmem, hid⟩ := Store.mem_of_get? hrow
  obtain ⟨after, hafter, hsame, hturn⟩ :=
    (sound rules earlier).row_after hmakes.before hmakes.effect hmem
  refine ⟨after, ?_, hturn⟩
  have hdistinct : DistinctNumbers moment.after.rows := hmakes.sound_after.committed_distinct
  exact (Store.get?_eq_some_iff hdistinct).2 ⟨hafter, hsame.trans hid⟩

/-- A row that a call commits is fresh. -/
theorem get?_new (hlasting : rules.clears = false) {earlier : List (Action κ τ)}
    {moment : Moment κ τ} (hmakes : rules.Makes (rules.world earlier) moment) {id : RowId} {row : Row}
    (hnone : (rules.world earlier).store.get? id = none) (hrow : moment.after.get? id = some row) :
    ∃ draft now, row = Row.fresh id draft now := by
  obtain ⟨hmem, hid⟩ := Store.mem_of_get? hrow
  have hnew := Store.get?_eq_none_iff.1 hnone
  rcases (sound rules earlier).row_before hmakes.before hmakes.effect hmem with
    hold | hstaged | ⟨change, old, hold, _, _, heq⟩
  · exact absurd hid (hnew row hold)
  · obtain ⟨number, draft, now, heq⟩ := staged_fresh hlasting earlier hstaged
    subst heq
    subst hid
    exact ⟨draft, now, rfl⟩
  · subst heq
    exact absurd hid (hnew old hold)

/-- The row that a change is answered with is the committed one, and nobody has seen it before. -/
theorem get?_of_shown {earlier : List (Action κ τ)} {moment : Moment κ τ}
    (hmakes : rules.Makes (rules.world earlier) moment) (hswap : moment.call.isSwap = true) {row : Row}
    (hshown : row ∈ moment.shown) :
    (∃ old change, (rules.world earlier).store.get? row.id = some old ∧ row = old.apply change) ∧
      moment.after.get? row.id = some row ∧ row ∉ (rules.world earlier).handedOut := by
  obtain ⟨old, change, hold, heq, hafter⟩ := hmakes.changed_of_shown hswap hshown
  obtain ⟨hmem, hid⟩ := Store.mem_of_get? hold
  refine ⟨⟨old, change, hold, heq⟩, ?_, fun hseen => ?_⟩
  · have hdistinct : DistinctNumbers moment.after.rows := hmakes.sound_after.committed_distinct
    refine (Store.get?_eq_some_iff hdistinct).2 ⟨?_, rfl⟩
    rw [hafter]
    exact (Store.mem_changeRow ⟨old, hmem, hid⟩).2 (Or.inl rfl)
  · have hle := ((sound rules earlier).current row hseen old (List.mem_append_left _ hmem) hid).1
    have hversion : row.version = old.version + 1 := by rw [heq]; rfl
    omega

/-- The store is as the latest call has left it. -/
theorem history_linked (hlasting : rules.clears = false) (actions : List (Action κ τ)) :
    (rules.world actions).history.head?.elim Store.empty (·.after) = (rules.world actions).store := by
  refine Rules.call_induction hlasting
    (fun store _ history => history.head?.elim Store.empty (·.after) = store) rfl ?_ actions
  intro earlier moment _ _
  rfl

/-- Every call of a history was made in an earlier world, which the history before it tells of. -/
theorem made_earlier (hlasting : rules.clears = false) (actions : List (Action κ τ))
    {later past : List (Moment κ τ)} {moment : Moment κ τ}
    (h : (rules.world actions).history = later ++ moment :: past) :
    ∃ earlier, (rules.world earlier).history = past ∧ rules.Makes (rules.world earlier) moment := by
  refine Rules.call_induction hlasting
    (fun _ _ history => ∀ later moment past, history = later ++ moment :: past →
      ∃ earlier, (rules.world earlier).history = past ∧ rules.Makes (rules.world earlier) moment)
    ?_ ?_ actions later moment past h
  · intro later moment past h
    cases later <;> cases h
  · intro earlier latest ih hmakes later moment past h
    cases later with
    | nil =>
        obtain ⟨rfl, rfl⟩ := List.cons.inj h
        exact ⟨earlier, rfl, hmakes⟩
    | cons _ later => exact ih later moment past (List.cons.inj h).2

/-- What holds after a call and is kept by every later one holds from that call on. -/
theorem from_call_on (hlasting : rules.clears = false)
    (holds : Store → List (Moment κ τ) → Prop) {past : List (Moment κ τ)} {moment : Moment κ τ}
    (hmoment : holds moment.after (moment :: past))
    (hcall : ∀ earlier next, holds (rules.world earlier).store (rules.world earlier).history →
      rules.Makes (rules.world earlier) next →
      holds next.after (next :: (rules.world earlier).history))
    (actions : List (Action κ τ)) {later : List (Moment κ τ)}
    (h : (rules.world actions).history = later ++ moment :: past) :
    holds (rules.world actions).store (rules.world actions).history := by
  refine Rules.call_induction hlasting
    (fun store _ history => ∀ later, history = later ++ moment :: past → holds store history)
    ?_ ?_ actions later h
  · intro later h
    cases later <;> cases h
  · intro earlier latest ih hmakes later h
    cases later with
    | nil =>
        obtain ⟨rfl, hpast⟩ := List.cons.inj h
        rw [hpast]
        exact hmoment
    | cons _ later => exact hcall earlier latest (ih later (List.cons.inj h).2) hmakes

/-- What holds of fresh rows and is kept by every change holds of all rows that are committed or were
handed out.  It may depend on what has happened, if what happens later does not undo it. -/
theorem rows_hold (hlasting : rules.clears = false) (holds : List (Moment κ τ) → Row → Prop)
    (hfresh : ∀ history id draft now, holds history (Row.fresh id draft now))
    (hlater : ∀ moment past row, holds past row → holds (moment :: past) row)
    (hchange : ∀ earlier moment change row, rules.Makes (rules.world earlier) moment →
      moment.call = .swap change → row ∈ (rules.world earlier).store.rows →
      change.fits row = true → holds (rules.world earlier).history row →
      holds (moment :: (rules.world earlier).history) (row.apply change))
    (actions : List (Action κ τ)) :
    (∀ row ∈ (rules.world actions).store.rows, holds (rules.world actions).history row) ∧
      ∀ seen ∈ (rules.world actions).handedOut, holds (rules.world actions).history seen := by
  refine Rules.call_induction hlasting
    (fun store _ history => (∀ row ∈ store.rows, holds history row) ∧
      ∀ seen ∈ history.flatMap Moment.shown, holds history seen) ?_ ?_ actions
  · constructor
    · intro row hrow
      cases hrow
    · intro seen hseen
      cases hseen
  · intro earlier moment ⟨hrows, hseen⟩ hmakes
    constructor
    · intro row hrow
      rcases (sound rules earlier).row_before hmakes.before hmakes.effect hrow with
        hold | hstaged | ⟨change, old, hold, hcall, hfits, rfl⟩
      · exact hlater _ _ row (hrows row hold)
      · obtain ⟨id, draft, now, rfl⟩ := staged_fresh hlasting earlier hstaged
        exact hfresh _ id draft now
      · exact hchange earlier moment change old hmakes hcall hold hfits (hrows old hold)
    · intro seen hshown
      rcases List.mem_append.1 hshown with hnow | hbefore
      · cases hmakes.effect with
        | quiet _ hthere _ =>
            have hold := hthere seen hnow
            rw [hmakes.before] at hold
            exact hlater _ _ seen (hrows seen hold)
        | changed change old hcall hold hfits _ hone _ =>
            rw [hmakes.before] at hold
            have hmem := (Store.mem_of_get? hold).1
            rw [hone seen hnow]
            exact hchange earlier moment change old hmakes hcall hmem hfits (hrows old hmem)
        | staged draft now _ hone _ =>
            rw [hone seen hnow]
            exact hfresh _ _ draft now
        | committed tx _ _ hnone _ =>
            rw [hnone] at hnow
            cases hnow
      · exact hlater _ _ seen (hseen seen hbefore)

/-- Calls under one number are calls of one task, the call that is made now included. -/
theorem worker_unique {protocol : τ → Protocol κ σ} {first : τ → σ}
    (hfollows : rules.Follows protocol first) {earlier : List (Action κ τ)} {moment : Moment κ τ}
    (hmakes : rules.Makes (rules.world earlier) moment) {one two : Moment κ τ}
    (hone : one ∈ moment :: (rules.world earlier).history)
    (htwo : two ∈ moment :: (rules.world earlier).history) {a b : Worker τ}
    (ha : one.worker = some a) (hb : two.worker = some b) (hnumber : a.number = b.number) :
    a = b := by
  have hjob : ∀ made ∈ moment :: (rules.world earlier).history, ∀ worker,
      made.worker = some worker →
      ∃ rest, (rules.world earlier).jobs[worker.number]? = some ⟨worker.task, rest⟩ := by
    intro made hmade worker hworker
    rcases List.mem_cons.1 hmade with rfl | hold
    · obtain ⟨next, hjob⟩ := hmakes.worker worker hworker
      exact ⟨_, hjob⟩
    · exact (keeping hfollows earlier).worker made hold worker hworker
  obtain ⟨_, hfirst⟩ := hjob one hone a ha
  obtain ⟨_, hsecond⟩ := hjob two htwo b hb
  exact Worker.eq_of_jobs hfirst hsecond hnumber

theorem worker_alone {protocol : τ → Protocol κ σ} {first : τ → σ}
    (hfollows : rules.Follows protocol first) (actions : List (Action κ τ)) {one two : Moment κ τ}
    (hone : one ∈ (rules.world actions).history) (htwo : two ∈ (rules.world actions).history)
    {a b : Worker τ} (ha : one.worker = some a) (hb : two.worker = some b)
    (hnumber : a.number = b.number) : a = b := by
  obtain ⟨_, hfirst⟩ := (keeping hfollows actions).worker one hone a ha
  obtain ⟨_, hsecond⟩ := (keeping hfollows actions).worker two htwo b hb
  exact Worker.eq_of_jobs hfirst hsecond hnumber

end World

end Courier
