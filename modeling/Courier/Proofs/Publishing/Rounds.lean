import Courier.Proofs.Interleaving.Sight
import Courier.Proofs.Publishing.Pace
import Courier.Proofs.Publishing.Ticks
/-
Ticks in pace.  A publisher at work on a store that does not fail, while others only commit fresh
rows, handles its batch row by row: whoever has a turn is claimed and settled, or waits for a cause.
-/
namespace Courier

variable {κ α β : Type}

/-- However much it has to report, the step leads to a store that is as it should be. -/
def TickStep.Leads (others : Store → Store → Prop) (before : Store → Prop) (step : TickStep κ α)
    (ends : Except MessagingError α → Store → Prop) : Prop :=
  ∀ report, (step.runFrom report).Leads others before fun result => ends result.1

namespace TickStep.Leads

variable {others : Store → Store → Prop} {before : Store → Prop}

theorem andThen {first : TickStep κ α} {f : α → TickStep κ β}
    {middle : Except MessagingError α → Store → Prop}
    {ends : Except MessagingError β → Store → Prop} (h : first.Leads others before middle)
    (hrest : ∀ value, (f value).Leads others (middle (.ok value)) ends)
    (hfails : ∀ error store, middle (.error error) store → ends (.error error) store) :
    TickStep.Leads others before (first >>= f) ends := by
  intro report
  refine Program.Leads.bind (h report) fun result => ?_
  obtain ⟨outcome, report⟩ := result
  cases outcome with
  | ok value => exact hrest value report
  | error error => exact Program.Leads.done (hfails error)

/-- What is so however the first step ends, and stays so, is so in the end. -/
theorem onward {first : TickStep κ α} {f : α → TickStep κ β} {after : Store → Prop}
    (h : first.Leads others before fun _ => after)
    (hrest : ∀ value, (f value).Leads others after fun _ => after) :
    TickStep.Leads others before (first >>= f) fun _ => after :=
  andThen h hrest fun _ _ => id

theorem of {attempt : Attempt κ MessagingError α} {ends : Except MessagingError α → Store → Prop}
    (h : Program.Leads others before attempt ends) : (TickStep.of attempt).Leads others before ends :=
  fun _ => Program.Leads.bind h fun _ => Program.Leads.done fun _ => id

theorem lift {program : Program κ α} {ends : Except MessagingError α → Store → Prop}
    (h : program.Leads others before fun value => ends (.ok value)) :
    TickStep.Leads others before (liftM program : TickStep κ α) ends :=
  fun _ => Program.Leads.bind (Program.Leads.bind h fun _ => Program.Leads.done fun _ => id) fun _ =>
    Program.Leads.done fun _ => id

theorem weaken {step : TickStep κ α} {ends : Except MessagingError α → Store → Prop}
    {earlier : Store → Prop} (h : step.Leads others before ends)
    (hbefore : ∀ store, earlier store → before store) : step.Leads others earlier ends :=
  fun report => (h report).weaken hbefore fun _ _ => id

/-- What cannot fail goes on with its value. -/
theorem lifting {program : Program κ α} {f : α → TickStep κ β} {middle : α → Store → Prop}
    {ends : Except MessagingError β → Store → Prop} (h : program.Leads others before middle)
    (hrest : ∀ value, (f value).Leads others (middle value) ends) :
    TickStep.Leads others before ((liftM program : TickStep κ α) >>= f) ends := by
  have hlift : TickStep.Leads others before (liftM program : TickStep κ α)
      fun outcome store => ∃ value, outcome = .ok value ∧ middle value store :=
    .lift (h.weaken (fun _ => id) fun value _ hmiddle => ⟨value, rfl, hmiddle⟩)
  refine hlift.andThen (fun value => (hrest value).weaken ?_) ?_
  · rintro store ⟨_, ⟨⟩, hmiddle⟩
    exact hmiddle
  · rintro error store ⟨_, ⟨⟩, _⟩

theorem modifying {f : TickReport → TickReport} {rest : PUnit → TickStep κ α}
    {ends : Except MessagingError α → Store → Prop} (h : (rest ⟨⟩).Leads others before ends) :
    TickStep.Leads others before ((modify f : TickStep κ PUnit) >>= rest) ends :=
  fun report => h (f report)

theorem since {step : TickStep κ α} {ends : Except MessagingError α → Store → Prop} {fact : Prop}
    (hfact : ∀ store, before store → fact) (h : fact → step.Leads others before ends) :
    step.Leads others before ends :=
  fun report => Program.Leads.since hfact fun hso => h hso report

end TickStep.Leads

/-- Others do no more than commit fresh rows. -/
def joining (tracked : RowId → Prop) (store more : Store) : Prop :=
  Joined tracked store.rows more.rows

def AtPace (tracked : RowId → Prop) (M : Count) (backoff : Backoff) (now : Instant)
    (batch : List Row) (store : Store) : Prop :=
  Paced tracked M backoff now batch store.rows

section rounds

variable {tracked : RowId → Prop} {M : Count} {backoff : Backoff} {now : Instant} {batch rest : List Row}
  {row claimed : Row} {before : Store → Prop}

theorem AtPace.join {store more : Store} (h : AtPace tracked M backoff now batch store) (hM : 0 < M)
    (hmore : joining tracked store more) : AtPace tracked M backoff now batch more :=
  Paced.join h hM hmore

/-- A call that leaves the rows alone. -/
theorem leads_look (hM : 0 < M) {call : Call κ} {next : call.Answer → Program κ α}
    {ends : α → Store → Prop}
    (hlook : ∀ store manner, manner.mishap = none → (Store.respond store manner call).2 = store)
    (hnext : ∀ answer, (next answer).Leads (joining tracked) (AtPace tracked M backoff now batch) ends) :
    Program.Leads (joining tracked) (AtPace tracked M backoff now batch) (.ask call next) ends := by
  refine Program.Leads.ask (fun _ => AtPace tracked M backoff now batch) ?_ hnext
  intro store manner hpaced hmishap more hmore
  rw [hlook store manner hmishap] at hmore
  exact hpaced.join hM hmore

/-- A change of the row that has its turn is made in full. -/
theorem leads_swap (hM : 0 < M) {change : Change} (hfits : change.fits row = true)
    (hbefore : ∀ store, before store → AtPace tracked M backoff now (row :: rest) store)
    (hafter : ∀ store, before store →
      Paced tracked M backoff now batch (Store.changeRow store.rows (row.apply change))) :
    Program.Leads (joining tracked) before
      (Custodian.swap change : Attempt κ MessagingError (Option Row))
      fun outcome store => outcome = .ok (some (row.apply change)) ∧
        AtPace tracked M backoff now batch store := by
  refine Program.Leads.calling (Program.Leads.ask (fun answer store =>
    answer = .ok (some (row.apply change)) ∧ AtPace tracked M backoff now batch store) ?_ ?_)
  · intro store manner hstore hmishap more hmore
    have hpaced := hbefore store hstore
    have hrow : store.get? change.id = some row :=
      (Store.get?_eq_some_iff hpaced.distinct).2 ⟨hpaced.row_mem, Change.id_of_fits hfits⟩
    have hdone : store.respond manner (.swap change : Call κ) = (store.swap change).swap :=
      Manner.onStore_of_none hmishap ..
    rw [hdone, Store.swap_of_fits hrow hfits] at hmore ⊢
    exact ⟨rfl, Paced.join (hafter store hstore) hM hmore⟩
  · intro answer
    refine Program.Leads.done fun store hstore => ?_
    obtain ⟨rfl, hpaced⟩ := hstore
    exact ⟨rfl, hpaced⟩

theorem leads_apply (hM : 0 < M) {change : Change} (hfits : change.fits row = true)
    (hbefore : ∀ store, before store → AtPace tracked M backoff now (row :: rest) store)
    (hafter : ∀ store, before store →
      Paced tracked M backoff now batch (Store.changeRow store.rows (row.apply change))) :
    Program.Leads (joining tracked) before
      (Custodian.apply change : Attempt κ MessagingError Row)
      fun _ => AtPace tracked M backoff now batch := by
  refine Program.Leads.andThen (leads_swap hM hfits hbefore hafter) (fun value => ?_)
    fun _ _ hstore => hstore.2
  cases value with
  | some changed => exact Program.Leads.done fun _ hstore => hstore.2
  | none => exact Program.Leads.done fun _ hstore => hstore.2

def Resolved (tracked : RowId → Prop) (row : Row) (store : Store) : Prop :=
  tracked row.id → ∀ cause ∈ store.rows, cause.Causes row → cause.status = .processed

def Waits (row : Row) (store : Store) : Prop :=
  ∃ cause ∈ store.rows, cause.Causes row ∧ cause.status ≠ .processed

theorem Resolved.join {store more : Store} (h : Resolved tracked row store)
    (hrow : row ∈ store.rows) (hmore : joining tracked store more) : Resolved tracked row more :=
  fun htracked cause hcause hcauses =>
    h htracked cause (hmore.apart row hrow htracked cause hcause hcauses) hcauses

theorem Waits.join {store more : Store} (h : Waits row store) (hmore : joining tracked store more) :
    Waits row more := by
  obtain ⟨cause, hcause, hwaits⟩ := h
  exact ⟨cause, hmore.old cause hcause, hwaits⟩

/-- A message is found resolved when all its outgoing rows are processed. -/
theorem outgoingStatuses_all_iff {store : Store} {id : MessageId} (hid : row.causationId = some id) :
    (store.outgoingStatuses id).all (· == .processed) = true ↔
      ∀ cause ∈ store.rows, cause.Causes row → cause.status = .processed := by
  rw [List.all_eq_true]
  constructor
  · intro hall cause hcause hcauses
    have hmessage : cause.messageId = id := (Option.some.inj (hid.symm.trans hcauses.2)).symm
    exact eq_of_beq (hall _ (Store.mem_outgoingStatuses.2 ⟨cause, hcause, ⟨hmessage, hcauses.1⟩, rfl⟩))
  · intro hall status hstatus
    obtain ⟨cause, hcause, ⟨rfl, hdelivery⟩, rfl⟩ := Store.mem_outgoingStatuses.1 hstatus
    exact beq_of_eq (hall cause hcause ⟨hdelivery, hid⟩)

/-- A look at the causes of the row that has its turn. -/
theorem leads_causeResolved (hM : 0 < M) {id : MessageId} (hid : row.causationId = some id) :
    Program.Leads (joining tracked) (AtPace tracked M backoff now (row :: rest))
      (Custodian.causeResolved id : Attempt κ MessagingError Bool)
      fun outcome store => AtPace tracked M backoff now (row :: rest) store ∧
        (outcome = .ok true ∧ Resolved tracked row store ∨ outcome = .ok false ∧ Waits row store) := by
  have hlook : Program.Leads (joining tracked) (AtPace tracked M backoff now (row :: rest))
      (Attempt.calling .store (Program.perform (.outgoing id)) :
        Attempt κ MessagingError (List Status))
      fun outcome store => AtPace tracked M backoff now (row :: rest) store ∧
        ∃ statuses, outcome = .ok statuses ∧
          (statuses.all (· == .processed) = true ∧ Resolved tracked row store ∨
            statuses.all (· == .processed) = false ∧ Waits row store) := by
    refine Program.Leads.calling (Program.Leads.perform fun store manner hpaced hmishap more hmore => ?_)
    have hdone : store.respond manner (.outgoing id : Call κ) =
        (.ok (store.outgoingStatuses id), store) := Manner.onStore_of_none hmishap ..
    rw [hdone] at hmore ⊢
    refine ⟨hpaced.join hM hmore, _, rfl, ?_⟩
    by_cases hall : (store.outgoingStatuses id).all (· == .processed) = true
    · have hresolved : Resolved tracked row store := fun _ => (outgoingStatuses_all_iff hid).1 hall
      exact Or.inl ⟨hall, hresolved.join (Paced.row_mem hpaced) hmore⟩
    · have hwaits : Waits row store := by
        rw [outgoingStatuses_all_iff hid] at hall
        simp only [Classical.not_forall, exists_prop] at hall
        exact hall
      exact Or.inr ⟨Bool.eq_false_iff.2 hall, hwaits.join hmore⟩
  refine Program.Leads.andThen hlook (fun statuses => Program.Leads.done ?_) ?_
  · rintro store ⟨hpaced, _, ⟨⟩, hfound⟩
    refine ⟨hpaced, hfound.imp (And.imp_left (congrArg Except.ok)) (And.imp_left (congrArg Except.ok))⟩
  · rintro error store ⟨_, _, ⟨⟩, _⟩

namespace Publisher

variable {publisher : Publisher κ}

theorem leads_record (hM : 0 < M) {sample : Sample} {f : TickReport → TickReport} :
    (TickStep.record sample f : TickStep κ Unit).Leads (joining tracked)
      (AtPace tracked M backoff now batch) fun _ => AtPace tracked M backoff now batch := by
  refine TickStep.Leads.modifying (.lift ?_)
  exact leads_look hM (fun _ _ _ => rfl) fun _ => Program.Leads.done fun _ => id

/-- However a settlement ends, what becomes of it is only reported. -/
theorem leads_settled (hM : 0 < M) {outcome : Attempt κ MessagingError Row}
    {after : Option Row → TickStep κ Unit}
    (h : Program.Leads (joining tracked) before outcome fun _ => AtPace tracked M backoff now batch)
    (hafter : ∀ settled, (after settled).Leads (joining tracked) (AtPace tracked M backoff now batch)
      fun _ => AtPace tracked M backoff now batch) :
    (settle outcome >>= after).Leads (joining tracked) before
      fun _ => AtPace tracked M backoff now batch := by
  have hlift : TickStep.Leads (joining tracked) before
      (liftM (outcome.run : Program κ (Except MessagingError Row)) : TickStep κ _)
      fun _ => AtPace tracked M backoff now batch := .lift h
  refine .onward (.onward hlift fun result => ?_) hafter
  split
  · exact fun _ => Program.Leads.done fun _ => id
  · exact .onward (leads_record hM) fun _ _ => Program.Leads.done fun _ => id
  · exact fun _ => Program.Leads.done fun _ => id

/-- A claim that is looked at before it is settled passes. -/
theorem leads_passed (hM : 0 < M) {next : Status} (hclaimed : claimed.Claimed)
    (hnext : next = .processed ∨ next = .failed) {change : Instant → Change}
    (hfits : ∀ clock, (change clock).fits claimed = true)
    (hafter : ∀ rows clock, Paced tracked M backoff now (claimed :: rest) rows →
      Paced tracked M backoff now rest (Store.changeRow rows (claimed.apply (change clock)))) :
    Program.Leads (joining tracked) (AtPace tracked M backoff now (claimed :: rest))
      (do
        Attempt.ofExcept (publisher.custodian.check claimed next)
        let clock ← (Program.now κ : Program κ Instant)
        Custodian.apply (change clock) : Attempt κ MessagingError Row)
      fun _ => AtPace tracked M backoff now rest := by
  have hpassed : publisher.custodian.check claimed next = .ok () := by
    unfold Custodian.check
    rw [hclaimed.refusal?_eq_none hnext]
  rw [hpassed]
  refine Program.Leads.lifting (leads_look hM (fun _ _ _ => rfl) fun clock =>
    Program.Leads.done fun _ => id) fun clock => ?_
  exact leads_apply hM (hfits clock) (fun _ => id) fun store => hafter store.rows clock

variable (hM : 0 < M) (hmax : publisher.custodian.maxRetries = M) (hclaimed : claimed.Claimed)

include hM hmax hclaimed

theorem leads_giveUp {reason : String} :
    (publisher.giveUp claimed reason).Leads (joining tracked)
      (AtPace tracked M backoff now (claimed :: rest)) fun _ => AtPace tracked M backoff now rest := by
  refine leads_settled hM (leads_passed hM hclaimed (Or.inr rfl) (fun _ => Change.fits_of claimed) ?_) ?_
  · intro rows clock hpaced
    have hlook := hclaimed.refusal?_eq_none (Or.inr rfl) publisher.custodian.maxRetries
    have hbounded := (Custodian.Permits.malformed reason clock hlook).bounded (hmax ▸ hpaced.row_bounded)
    refine hpaced.settle hclaimed.1 (claimed.sameMessage_apply _) (hmax ▸ hbounded) nofun rfl ?_
    intro hopen
    have hlive := (Row.isTerminal_eq_false_iff.1 hopen).2
    simp [Row.apply, Custodian.malformedChange] at hlive
  · intro settled
    cases settled with
    | some row => exact leads_record hM
    | none => exact fun _ => Program.Leads.done fun _ => id

theorem leads_settleDelivered :
    (publisher.settleDelivered claimed).Leads (joining tracked)
      (AtPace tracked M backoff now (claimed :: rest)) fun _ => AtPace tracked M backoff now rest := by
  refine leads_settled hM (leads_passed hM hclaimed (Or.inl rfl) (fun _ => Change.fits_of claimed) ?_) ?_
  · intro rows clock hpaced
    have hlook := hclaimed.refusal?_eq_none (Or.inl rfl) publisher.custodian.maxRetries
    have hbounded := (Custodian.Permits.processed clock hlook).bounded (hmax ▸ hpaced.row_bounded)
    refine hpaced.settle hclaimed.1 (claimed.sameMessage_apply _) (hmax ▸ hbounded) nofun rfl ?_
    exact fun hopen => absurd rfl (Row.isTerminal_eq_false_iff.1 hopen).1
  · intro settled
    cases settled with
    | some row => exact leads_record hM
    | none => exact fun _ => Program.Leads.done fun _ => id

theorem leads_settleFailed (hbackoff : publisher.settings.backoff = backoff) {reason : String} :
    (publisher.settleFailed claimed reason now).Leads (joining tracked)
      (AtPace tracked M backoff now (claimed :: rest)) fun _ => AtPace tracked M backoff now rest := by
  refine leads_settled hM (leads_passed hM hclaimed (Or.inr rfl) (fun _ => Change.fits_of claimed) ?_) ?_
  · intro rows clock hpaced
    have hlook := hclaimed.refusal?_eq_none (Or.inr rfl) publisher.custodian.maxRetries
    have hbounded := (Custodian.Permits.failure (some reason) clock
      (publisher.nextAttemptAt now (Count.next claimed.retries)) hlook).bounded (hmax ▸ hpaced.row_bounded)
    refine hpaced.settle hclaimed.1 (claimed.sameMessage_apply _) (hmax ▸ hbounded) nofun rfl ?_
    intro _
    have hroom := (hpaced.row_bounded.live hpaced.row_live).1
    refine ⟨Count.lt_next (UInt32.lt_of_lt_of_le hroom (Count.le_greatest M)), ?_⟩
    rw [← hbackoff]
    rfl
  · intro settled
    cases settled with
    | some row =>
        dsimp only
        split
        · exact leads_record hM
        · exact leads_record hM
    | none => exact fun _ => Program.Leads.done fun _ => id

omit hmax hclaimed in
/-- Handing a row over changes no row. -/
theorem leads_router (envelope : RawEnvelope) :
    (publisher.router.deliver row envelope).Leads (joining tracked)
      (AtPace tracked M backoff now batch) fun _ => AtPace tracked M backoff now batch := by
  rcases publisher.router.deliver_cases row envelope with
    ⟨error, hdeliver⟩ | ⟨key, hdeliver⟩ | ⟨command, hdeliver⟩
  · rw [hdeliver]
    exact Program.Leads.done fun _ => id
  · rw [hdeliver]
    exact leads_look hM (fun _ _ _ => rfl) fun _ => Program.Leads.done fun _ => id
  · rw [hdeliver]
    exact leads_look hM (fun _ _ _ => rfl) fun _ => Program.Leads.done fun _ => id

theorem leads_deliver (hbackoff : publisher.settings.backoff = backoff) :
    (publisher.deliver claimed now).Leads (joining tracked)
      (AtPace tracked M backoff now (claimed :: rest)) fun _ => AtPace tracked M backoff now rest := by
  refine .modifying ?_
  cases publisher.router.decode claimed with
  | error error => exact leads_giveUp hM hmax hclaimed
  | ok envelope =>
      refine .lifting (leads_router hM envelope) fun outcome => ?_
      cases outcome with
      | ok _ => exact leads_settleDelivered hM hmax hclaimed
      | error error =>
          dsimp only
          split
          · exact leads_settleFailed hM hmax hclaimed hbackoff
          · exact leads_giveUp hM hmax hclaimed

omit hclaimed

theorem leads_takeUp (hbackoff : publisher.settings.backoff = backoff)
    (hfree : row.status ≠ .processing) :
    (publisher.takeUp row now).Leads (joining tracked)
      (fun store => AtPace tracked M backoff now (row :: rest) store ∧ Resolved tracked row store)
      fun _ => AtPace tracked M backoff now rest := by
  refine .since (fun store hstore => (Paced.refusal?_eq_none hstore.1 hfree :
    row.refusal? .processing M = none)) fun hlook => ?_
  refine .since (fun store hstore => Paced.row_live hstore.1) fun hlive => ?_
  have hpassed : publisher.custodian.check row .processing = .ok () := by
    unfold Custodian.check
    rw [hmax, hlook]
  have hclaim : Program.Leads (joining tracked)
      (fun store => AtPace tracked M backoff now (row :: rest) store ∧ Resolved tracked row store)
      (publisher.custodian.claimAt row now : Attempt κ MessagingError (Option Row))
      fun outcome store =>
        outcome = .ok (some (row.apply (publisher.custodian.claimChange row now))) ∧
        AtPace tracked M backoff now
          (row.apply (publisher.custodian.claimChange row now) :: rest) store := by
    unfold Custodian.claimAt
    rw [hpassed]
    exact leads_swap hM (Change.fits_of row) (fun _ => And.left) fun store hstore =>
      Paced.claim hstore.1 hmax hfree hstore.2
  refine .andThen (.of hclaim) (fun value => ?_) ?_
  · refine .since (fun store hstore => Except.ok.inj hstore.1) fun hvalue => ?_
    subst hvalue
    have hclaimed : (row.apply (publisher.custodian.claimChange row now)).Claimed := ⟨rfl, hlive⟩
    exact (leads_deliver hM hmax hclaimed hbackoff).weaken fun _ => And.right
  · rintro error store ⟨⟨⟩, _⟩

theorem leads_postpone (hbackoff : publisher.settings.backoff = backoff)
    (hfree : row.status ≠ .processing) :
    (publisher.postpone row now).Leads (joining tracked)
      (fun store => AtPace tracked M backoff now (row :: rest) store ∧ Waits row store)
      fun _ => AtPace tracked M backoff now rest := by
  refine .since (fun store hstore => Paced.mayDefer hstore.1 hfree) fun hlook => ?_
  have hdefer : Program.Leads (joining tracked)
      (fun store => AtPace tracked M backoff now (row :: rest) store ∧ Waits row store)
      (publisher.custodian.defer row
        (publisher.nextAttemptAt now (Count.next row.deferrals)) : Attempt κ MessagingError (Option Row))
      fun _ => AtPace tracked M backoff now rest := by
    unfold Custodian.defer
    rw [if_pos hlook]
    refine (leads_swap hM (Custodian.fits_deferChange ..) (fun _ => And.left)
      fun store hstore => ?_).weaken (fun _ => id) fun _ _ => And.right
    have hpostponed := Paced.postpone hstore.1 hmax hfree hstore.2
    rw [← hbackoff] at hpostponed ⊢
    exact hpostponed
  refine .onward (.of hdefer) fun value => ?_
  cases value with
  | none => exact leads_record hM
  | some changed =>
      dsimp only
      split
      · exact leads_record hM
      · exact leads_record hM

/-- Whoever has a turn is done with after it. -/
theorem leads_process (hbackoff : publisher.settings.backoff = backoff)
    (hfree : row.status ≠ .processing) :
    (publisher.process row now).Leads (joining tracked) (AtPace tracked M backoff now (row :: rest))
      fun _ => AtPace tracked M backoff now rest := by
  unfold process
  rw [if_neg hfree]
  split
  · rename_i hnone
    refine (leads_takeUp hM hmax hbackoff hfree).weaken fun store hpaced => ⟨hpaced, ?_⟩
    intro _ cause _ hcauses
    exact nomatch hnone.symm.trans hcauses.2
  · rename_i id hid
    refine .andThen (.of (leads_causeResolved hM hid)) (fun resolved => ?_) ?_
    · cases resolved with
      | true =>
          refine (leads_takeUp hM hmax hbackoff hfree).weaken ?_
          rintro store ⟨hpaced, ⟨_, hresolved⟩ | ⟨⟨⟩, _⟩⟩
          exact ⟨hpaced, hresolved⟩
      | false =>
          refine (leads_postpone hM hmax hbackoff hfree).weaken ?_
          rintro store ⟨hpaced, ⟨⟨⟩, _⟩ | ⟨_, hwaits⟩⟩
          exact ⟨hpaced, hwaits⟩
    · rintro error store ⟨_, ⟨⟨⟩, _⟩ | ⟨⟨⟩, _⟩⟩

theorem leads_processAll (hbackoff : publisher.settings.backoff = backoff) {rows : List Row}
    (hfree : ∀ row ∈ rows, row.status ≠ .processing) (report : TickReport) :
    (publisher.processAll now rows report).Leads (joining tracked) (AtPace tracked M backoff now rows)
      fun _ => AtPace tracked M backoff now [] := by
  induction rows generalizing report with
  | nil => exact Program.Leads.done fun _ => id
  | cons row rest ih =>
      obtain ⟨hrow, hrest⟩ := List.forall_mem_cons.1 hfree
      refine Program.Leads.bind (leads_process hM hmax hbackoff hrow report) fun result => ?_
      obtain ⟨outcome, report⟩ := result
      cases outcome with
      | ok value => exact ih hrest report
      | error error => exact leads_look hM (fun _ _ _ => rfl) fun _ => ih hrest _

/-- A tick that finds the rows in pace leaves them in pace. -/
theorem leads_tick (hbackoff : publisher.settings.backoff = backoff) :
    Program.Leads (joining tracked) (AtPace tracked M backoff now [])
      (publisher.tickAt now : Attempt κ PublisherError TickReport)
      fun _ => AtPace tracked M backoff now [] := by
  have hfetch : Program.Leads (joining tracked) (AtPace tracked M backoff now [])
      (Attempt.calling .messaging (publisher.custodian.due now publisher.settings.batchSize).run :
        Attempt κ PublisherError (List Row))
      fun outcome store => ∃ rows, outcome = .ok rows ∧ AtPace tracked M backoff now rows store ∧
        ∀ row ∈ rows, row.status ≠ .processing := by
    refine Program.Leads.calling (Program.Leads.calling (Program.Leads.perform ?_))
    intro store manner hpaced hmishap more hmore
    have hdone : store.respond manner (.due (DueQuery.all now publisher.custodian.maxRetries
        publisher.settings.batchSize) : Call κ) = (.ok (store.due (DueQuery.all now
          publisher.custodian.maxRetries publisher.settings.batchSize)), store) :=
      Manner.onStore_of_none hmishap ..
    rw [hdone] at hmore ⊢
    rw [hmax]
    refine ⟨_, rfl, AtPace.join (Paced.fetched hpaced _) hM hmore, fun row hrow hstatus => ?_⟩
    exact nomatch hpaced.claimed row (Store.mem_due hrow).1 hstatus
  have hrounds : ∀ rows, (∀ row ∈ rows, row.status ≠ .processing) →
      Program.Leads (joining tracked) (AtPace tracked M backoff now rows)
        (do
          let report ← (publisher.processAll now rows { fetched := rows.length } :
            Program κ TickReport)
          Program.count κ .tickDone
          return report : Attempt κ PublisherError TickReport)
        fun _ => AtPace tracked M backoff now [] := by
    intro rows hfree
    refine Program.Leads.lifting (leads_processAll hM hmax hbackoff hfree _) fun report => ?_
    refine Program.Leads.lifting (leads_look hM (fun _ _ _ => rfl) fun _ =>
      Program.Leads.done fun _ => id) fun _ => ?_
    exact Program.Leads.done fun _ => id
  refine Program.Leads.andThen hfetch (fun rows => ?_) ?_
  · have hknown : ∀ store, (∃ fetched, (.ok rows : Except PublisherError (List Row)) = .ok fetched ∧
        AtPace tracked M backoff now fetched store ∧ ∀ row ∈ fetched, row.status ≠ .processing) →
        AtPace tracked M backoff now rows store ∧ ∀ row ∈ rows, row.status ≠ .processing := by
      rintro store ⟨_, ⟨⟩, hpaced⟩
      exact hpaced
    refine Program.Leads.since (fun store hstore => (hknown store hstore).2) fun hfree => ?_
    exact (hrounds rows hfree).weaken (fun store hstore => (hknown store hstore).1) fun _ _ => id
  · rintro error store ⟨_, ⟨⟩, _⟩

end Publisher

end rounds

end Courier
