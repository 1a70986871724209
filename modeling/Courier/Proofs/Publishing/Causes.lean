import Courier.Proofs.Publishing.Claims
/-
Causes before effects.  A row is claimed only after its cause was found resolved, and from then on
all outgoing rows of the cause that were committed no later than the row stay processed: nothing
leads out of that status.  So the claim may change hands without another look at the cause.
-/
namespace Courier

variable {κ τ ρ : Type}

/-- The row was committed no later than another one: never was the other there without it. -/
def CommittedBy (history : List (Moment κ τ)) (row other : RowId) : Prop :=
  ∀ moment ∈ history, (moment.after.get? other).isSome = true → (moment.after.get? row).isSome = true

/-- The outgoing rows of the cause that were committed no later than the row are processed. -/
def Ready (store : Store) (history : List (Moment κ τ)) (id : RowId) (cause : MessageId) : Prop :=
  ∀ number other, store.get? number = some other → other.delivery ≠ .inbox →
    other.messageId = cause → CommittedBy history number id → other.status = .processed

/-- What is committed after a row is not among the causes that the row has to wait for. -/
theorem not_committedBy_of_new {rules : Rules κ τ ρ} (hlasting : rules.clears = false)
    {earlier : List (Action κ τ)} {number id : RowId}
    (hthere : ((rules.world earlier).store.get? id).isSome = true)
    (hnew : (rules.world earlier).store.get? number = none) :
    ¬ CommittedBy (rules.world earlier).history number id := by
  intro hcommitted
  have hlinked := World.history_linked hlasting earlier
  cases hhistory : (rules.world earlier).history with
  | nil =>
      rw [hhistory] at hlinked
      rw [← hlinked] at hthere
      cases hthere
  | cons latest past =>
      rw [hhistory] at hlinked hcommitted
      have hlatest : latest.after = (rules.world earlier).store := hlinked
      have hsome := hcommitted latest (List.mem_cons_self ..)
      rw [hlatest, hnew] at hsome
      cases hsome hthere

section committed

variable {rules : Rules κ τ ρ} {earlier : List (Action κ τ)} {moment : Moment κ τ}

theorem isSome_after (hmakes : rules.Makes (rules.world earlier) moment) {id : RowId}
    (hthere : ((rules.world earlier).store.get? id).isSome = true) :
    (moment.after.get? id).isSome = true := by
  obtain ⟨row, hrow⟩ := Option.isSome_iff_exists.1 hthere
  obtain ⟨after, hafter, _⟩ := World.get?_after hmakes hrow
  rw [hafter]
  rfl

/-- What a worker gets to know is committed. -/
theorem known_committed (hmakes : rules.Makes (rules.world earlier) moment) (phase : Phase) {row : Row}
    (hrow : row ∈ (phase.next moment.call moment.answer).known) :
    row ∈ phase.known ∨ (moment.after.get? row.id).isSome = true := by
  rcases List.mem_append.1 hrow with hbatch | hheld
  · rcases phase.batch_next _ _ hbatch with ⟨⟨query, hdue⟩, hshown⟩ | hold
    · refine Or.inr (isSome_after hmakes ?_)
      have hmem := hmakes.committed_of_due hdue hshown
      have hdistinct := (World.sound rules earlier).committed_distinct
      rw [(Store.get?_eq_some_iff hdistinct).2 ⟨hmem, rfl⟩]
      rfl
    · exact Or.inl (List.mem_append_left _ hold)
  · rw [Option.mem_toList, phase.row?_next] at hheld
    split at hheld
    · rename_i hswap
      have hshown := List.mem_of_find?_eq_some hheld
      rw [(World.get?_of_shown hmakes hswap hshown).2.1]
      exact Or.inr rfl
    · exact Or.inl (List.mem_append_right _ (Option.mem_toList.2 hheld))

end committed

section

variable {eligible : PublisherSettings → Bool} {earlier : List (Action κ (Shift κ))}
  {moment : Moment κ (Shift κ)}

theorem Shift.Outcome.not_processed {shift : Shift κ} {phase : Phase} {row after : Row}
    (h : shift.Outcome phase row after) : row.status ≠ .processed := by
  intro hprocessed
  cases h with
  | claimed _ hfree => simp [hprocessed] at hfree
  | takenOver hheld => simp [hprocessed] at hheld
  | postponed hfree => simp [hprocessed] at hfree
  | succeeded hheld => simp [hprocessed] at hheld
  | failed hheld => simp [hprocessed] at hheld
  | ended hheld => simp [hprocessed] at hheld

theorem Ready.step {id : RowId} {cause : MessageId}
    (h : Ready ((publishing κ eligible).world earlier).store
      ((publishing κ eligible).world earlier).history id cause)
    (hmakes : (publishing κ eligible).Makes ((publishing κ eligible).world earlier) moment)
    (hthere : (((publishing κ eligible).world earlier).store.get? id).isSome = true) :
    Ready moment.after (moment :: ((publishing κ eligible).world earlier).history) id cause := by
  intro number other hother hdelivery hmessage hcommitted
  have hpast : CommittedBy ((publishing κ eligible).world earlier).history number id :=
    fun made hmade => hcommitted made (List.mem_cons_of_mem _ hmade)
  cases publishing_fate hmakes number with
  | absent hbefore => exact absurd hpast (not_committedBy_of_new rfl hthere hbefore)
  | committed _ _ hbefore => exact absurd hpast (not_committedBy_of_new rfl hthere hbefore)
  | kept before hbefore hafter =>
      obtain rfl := Option.some.inj (hafter.symm.trans hother)
      exact h number before hbefore hdelivery hmessage hpast
  | turned before after worker hbefore hafter hsame _ _ houtcome =>
      obtain rfl := Option.some.inj (hafter.symm.trans hother)
      rw [hsame.delivery] at hdelivery
      rw [hsame.messageId] at hmessage
      exact absurd (h number before hbefore hdelivery hmessage hpast) houtcome.not_processed

/-- A worker that finds a cause resolved has seen that all its outgoing rows are processed. -/
theorem resolved_next
    (hmakes : (publishing κ eligible).Makes ((publishing κ eligible).world earlier) moment)
    (phase : Phase) {cause : MessageId}
    (h : (phase.next moment.call moment.answer).resolved = some cause) :
    (phase.next moment.call moment.answer).batch = phase.batch ∧
      (phase.resolved = some cause ∨
        ∀ other ∈ ((publishing κ eligible).world earlier).store.rows, other.delivery ≠ .inbox →
          other.messageId = cause → other.status = .processed) := by
  obtain ⟨worker, call, manner, rfl⟩ := hmakes.made
  generalize ((publishing κ eligible).world earlier) = world at h ⊢
  cases call with
  | due query =>
      rcases world.answer_due worker query manner with heq | ⟨error, heq⟩
      · rw [heq] at h
        cases h
      · rw [heq] at h ⊢
        exact ⟨rfl, Or.inl h⟩
  | outgoing id =>
      rcases world.answer_outgoing worker id manner with heq | ⟨error, heq⟩
      · rw [heq] at h ⊢
        refine ⟨rfl, Or.inr fun other hother hdelivery hmessage => ?_⟩
        change (if _ then some id else none) = some cause at h
        split at h
        · rename_i hall
          obtain rfl := Option.some.inj h
          have hmem : other.status ∈ world.store.outgoingStatuses id :=
            Store.mem_outgoingStatuses.2 ⟨other, hother, ⟨hmessage, hdelivery⟩, rfl⟩
          exact eq_of_beq (List.all_eq_true.1 hall _ hmem)
        · cases h
      · rw [heq] at h
        cases h
  | swap change =>
      obtain ⟨hold, heq⟩ := phase.next_swap change (world.moment worker (.swap change) manner).answer
      change (phase.next (.swap change : Call κ) _).resolved = _ at h
      change (phase.next (.swap change : Call κ) _).batch = _ ∧ _
      rw [heq] at h ⊢
      exact ⟨rfl, Or.inl h⟩
  | _ => exact ⟨rfl, Or.inl h⟩

/-- Nothing is under way whose cause is not ready. -/
structure Causal (store : Store) (history : List (Moment κ τ)) : Prop where
  there : ∀ number, ∀ row ∈ (phaseOf number history).known, (store.get? row.id).isSome = true
  resolved : ∀ number cause, (phaseOf number history).resolved = some cause →
    ∀ row ∈ (phaseOf number history).batch, row.causationId = some cause →
      Ready store history row.id cause
  processing : ∀ id row, store.get? id = some row → row.status = .processing →
    ∀ cause, row.causationId = some cause → Ready store history id cause
  held : ∀ number row, held number history = some row →
    ∀ cause, row.causationId = some cause → Ready store history row.id cause

theorem Causal.step
    (h : Causal ((publishing κ eligible).world earlier).store
      ((publishing κ eligible).world earlier).history)
    (hmakes : (publishing κ eligible).Makes ((publishing κ eligible).world earlier) moment) :
    Causal moment.after (moment :: ((publishing κ eligible).world earlier).history) := by
  have hprocessing : ∀ id row, moment.after.get? id = some row → row.status = .processing →
      ∀ cause, row.causationId = some cause →
        Ready moment.after (moment :: ((publishing κ eligible).world earlier).history) id cause := by
    intro id row hrow hstatus cause hcause
    cases publishing_fate hmakes id with
    | absent _ hafter =>
        rw [hafter] at hrow
        cases hrow
    | committed draft now _ hafter =>
        obtain rfl := Option.some.inj (hafter.symm.trans hrow)
        cases hstatus
    | kept before hbefore hafter =>
        obtain rfl := Option.some.inj (hafter.symm.trans hrow)
        exact (h.processing id before hbefore hstatus cause hcause).step hmakes (by simp [hbefore])
    | turned before after worker hbefore hafter hsame _ _ houtcome =>
        obtain rfl := Option.some.inj (hafter.symm.trans hrow)
        rw [hsame.causationId] at hcause
        refine Ready.step ?_ hmakes (by simp [hbefore])
        cases houtcome with
        | claimed hlive hfree hroom hdue hbatch hresolved hnow hretries hdeadline =>
            rw [← (Store.mem_of_get? hbefore).2]
            exact h.resolved worker.number cause (hresolved cause hcause) before hbatch hcause
        | takenOver hheld hdue hnow hretries hroom hdeadline =>
            exact h.processing id before hbefore hheld cause hcause
        | postponed hfree hdue hnow hlive hretries hnext =>
            rw [hnow] at hstatus
            simp [hstatus] at hfree
        | succeeded hheld hhold hnow => simp [hnow] at hstatus
        | failed hheld hhold hnow hlive hretries hnext => simp [hnow] at hstatus
        | ended hheld hnow hdead => simp [hnow] at hstatus
  constructor
  · intro number row hrow
    simp only [phaseOf] at hrow
    split at hrow
    · rcases known_committed hmakes _ hrow with hold | hnew
      · exact isSome_after hmakes (h.there number row hold)
      · exact hnew
    · exact isSome_after hmakes (h.there number row hrow)
  · intro number cause hresolved row hrow hcause
    simp only [phaseOf] at hresolved hrow
    split at hresolved
    · rename_i hby
      rw [if_pos hby] at hrow
      obtain ⟨hbatch, hcases⟩ := resolved_next hmakes _ hresolved
      rw [hbatch] at hrow
      refine Ready.step ?_ hmakes (h.there number row (List.mem_append_left _ hrow))
      rcases hcases with hold | hall
      · exact h.resolved number cause hold row hrow hcause
      · intro other found hfound hdelivery hmessage _
        exact hall found (Store.mem_of_get? hfound).1 hdelivery hmessage
    · rename_i hby
      rw [if_neg hby] at hrow
      exact (h.resolved number cause hresolved row hrow hcause).step hmakes
        (h.there number row (List.mem_append_left _ hrow))
  · exact hprocessing
  · intro number row hheld cause hcause
    rcases held_cons hheld with ⟨_, hswap, hshown, hstatus⟩ | ⟨hold, _⟩
    · have hafter := (World.get?_of_shown hmakes hswap hshown).2.1
      exact hprocessing row.id row hafter hstatus cause hcause
    · refine (h.held number row hold cause hcause).step hmakes (h.there number row ?_)
      rw [← row?_phaseOf] at hold
      exact List.mem_append_right _ (Option.mem_toList.2 hold)

theorem publishing_causal (actions : List (Action κ (Shift κ))) :
    Causal ((publishing κ eligible).world actions).store
      ((publishing κ eligible).world actions).history := by
  refine Rules.call_induction rfl (fun store _ history => Causal store history) ?_ ?_ actions
  · constructor
    · intro number row hrow
      cases hrow
    · intro number cause hresolved
      cases hresolved
    · intro id row hrow
      cases hrow
    · intro number row hheld
      cases hheld
  · intro earlier moment h hmakes
    exact h.step hmakes

/-- In every interleaving of publishers and of commits, whatever fails, a row that is handed to a bus
or a handler has no cause that is still on its way: every outgoing row of its cause that was
committed no later than the row itself is processed at that moment, and no dead letter. -/
theorem causes_first (actions : List (Action κ (Shift κ)))
    {later past : List (Moment κ (Shift κ))} {moment : Moment κ (Shift κ)}
    (hhistory : ((publishing κ eligible).world actions).history = later ++ moment :: past)
    (hover : moment.call.isHandOver = true) :
    ∃ worker claimed, moment.worker = some worker ∧ held worker.number past = some claimed ∧
      worker.task.HandsOver claimed moment.call ∧
      ∀ cause ∈ moment.before.rows, cause.delivery ≠ .inbox →
        claimed.causationId = some cause.messageId → CommittedBy past cause.id claimed.id →
        cause.status = .processed ∧ cause.deadLettered = false := by
  obtain ⟨earlier, rfl, hmakes⟩ := World.made_earlier rfl actions hhistory
  obtain ⟨worker, claimed, hworker, hhold, hhands⟩ := publishing_hands_over hmakes hover
  have hheld := held_of_hold hhold
  refine ⟨worker, claimed, hworker, hheld, hhands, ?_⟩
  intro cause hcause hdelivery hmessage hcommitted
  rw [hmakes.before] at hcause
  have hdistinct := (World.sound (publishing κ eligible) earlier).committed_distinct
  have hfound := (Store.get?_eq_some_iff hdistinct).2 ⟨hcause, rfl⟩
  have hready := (publishing_causal earlier).held worker.number claimed hheld _ hmessage
  have hprocessed := hready cause.id cause hfound hdelivery rfl hcommitted
  refine ⟨hprocessed, ?_⟩
  cases hdead : cause.deadLettered with
  | false => rfl
  | true =>
      have hundelivered := (publishing_orderly.regular earlier hfound).undelivered hdead
      simp [hprocessed] at hundelivered

end

/-- A parcel is delivered, and then one that it has caused is handed over. -/
def parcelsSent : List (Action Unit (Shift Unit)) :=
  ticking epoch 1 4 (.ok ()) ++ posted 2 (parcel 2 (some (parcel 1 none).messageId)) ++
    ticking epoch 0 6 (.ok ()) ++ posted 1 (parcel 1 none)

theorem parcels_in_order :
    ∃ moment past, ((publishing Unit fun _ => true).world parcelsSent).history = moment :: past ∧
      moment.call.isHandOver = true ∧
      (held 1 past).bind (·.causationId) = some (parcel 1 none).messageId ∧
      CommittedBy past ⟨1⟩ ⟨2⟩ ∧
      ∃ worker claimed, moment.worker = some worker ∧ held worker.number past = some claimed ∧
        worker.task.HandsOver claimed moment.call ∧
        ∀ cause ∈ moment.before.rows, cause.delivery ≠ .inbox →
          claimed.causationId = some cause.messageId → CommittedBy past cause.id claimed.id →
          cause.status = .processed ∧ cause.deadLettered = false := by
  have hlast : (((publishing Unit fun _ => true).world parcelsSent).history.head?.any
      (·.call.isHandOver)) = true := by decide +kernel
  have hcause : (held 1 ((publishing Unit fun _ => true).world parcelsSent).history.tail).bind
      (·.causationId) = some (parcel 1 none).messageId := by decide +kernel
  have hcommitted : ∀ made ∈ ((publishing Unit fun _ => true).world parcelsSent).history.tail,
      (made.after.get? ⟨2⟩).isSome = true → (made.after.get? ⟨1⟩).isSome = true := by
    decide +kernel
  cases hhistory : ((publishing Unit fun _ => true).world parcelsSent).history with
  | nil =>
      rw [hhistory] at hlast
      cases hlast
  | cons moment past =>
      rw [hhistory] at hlast hcause hcommitted
      have hsplit : ((publishing Unit fun _ => true).world parcelsSent).history =
          [] ++ moment :: past := hhistory
      exact ⟨moment, past, rfl, hlast, hcause, hcommitted, causes_first parcelsSent hsplit hlast⟩

end Courier
