import Courier.Proofs.Publishing.Claims
import Courier.Proofs.Publishing.Endings
import Courier.Proofs.Publishing.Runs
/-
Ticks that nobody disturbs.  As long as the store does not fail and nobody else writes to it, every
row of a batch is still as it was fetched when its turn comes, and its turn ends in one of five ways,
whatever the bus and the handlers answer.
-/
namespace Courier

variable {κ α : Type}

/-- A store that nobody else writes to, with the number of calls so far and all that was handed over. -/
structure Scene (κ : Type) where
  store : Store
  calls : Nat
  handed : List (HandOver κ)

namespace Scene

/-- The answer to the next call.  The store does not fail; all else is answered from outside. -/
def answer (outside : Nat → Manner) (call : Call κ) (scene : Scene κ) : call.Answer × Scene κ :=
  let response := scene.store.respond { outside scene.calls with mishap := none } call
  (response.1, ⟨response.2, scene.calls + 1, scene.handed ++ (call.handOver? response.1).toList⟩)

structure Shows (scene : Scene κ) (store : Store) (handed : List (HandOver κ)) : Prop where
  store : scene.store = store
  handed : scene.handed = handed

end Scene

section calls

variable {outside : Nat → Manner} {scene : Scene κ} {store : Store} {handed : List (HandOver κ)}

/-- Reading the clock leaves no trace. -/
theorem ends_now (h : scene.Shows store handed) :
    (Program.now κ).Ends (Scene.answer outside) scene fun _ after => after.Shows store handed :=
  ⟨h.store, (List.append_nil _).trans h.handed⟩

theorem ends_count (sample : Sample) (h : scene.Shows store handed) :
    (Program.count κ sample).Ends (Scene.answer outside) scene fun _ after => after.Shows store handed :=
  ⟨h.store, (List.append_nil _).trans h.handed⟩

/-- What is handed over by a delivery is all that it leaves behind. -/
theorem Router.ends_deliver (router : Router κ) (row : Row) (envelope : RawEnvelope)
    (h : scene.Shows store handed) :
    (router.deliver row envelope).Ends (Scene.answer outside) scene fun result after =>
      ∃ more, router.Delivers row envelope more result ∧ after.Shows store (handed ++ more) := by
  by_cases hdelivery : row.delivery = .outbox
  · rw [router.deliver_outbox row envelope hdelivery]
    exact ⟨_, .outgoing hdelivery _, h.store, congrArg (· ++ _) h.handed⟩
  · rw [router.deliver_inside row envelope hdelivery]
    rcases router.registry.schedule_cases envelope with
      ⟨error, hcommand, hschedule⟩ | ⟨command, hcommand, hschedule⟩
    · rw [hschedule]
      exact ⟨[], .nobody hdelivery hcommand, h.store, h.handed.trans (List.append_nil _).symm⟩
    · rw [hschedule]
      exact ⟨_, .inside hdelivery hcommand _, h.store, congrArg (· ++ _) h.handed⟩

namespace Custodian

variable {custodian : Custodian} {row claimed : Row} {change : Change}

/-- A live row after a postponement. -/
theorem apply_deferChange (custodian : Custodian) (hlive : row.deadLettered = false) (next : Instant) :
    row.apply (custodian.deferChange row next) =
      { row with
        deferrals := Count.next row.deferrals
        nextAttemptAt := next
        deadLettered := decide (custodian.maxRetries ≤ Count.next row.deferrals)
        lastError := if custodian.maxRetries ≤ Count.next row.deferrals then
            some ("cause unresolved after " ++ toString (Count.next row.deferrals).toNat ++ " deferrals")
          else row.lastError
        version := row.version + 1 } := by
  by_cases hceiling : custodian.maxRetries ≤ Count.next row.deferrals
  · simp [Row.apply, deferChange, Change.of, hceiling]
  · simp [Row.apply, deferChange, Change.of, hceiling, hlive]

/-- A row whose last claim has run out. -/
theorem apply_reclaimChange {custodian : Custodian}
    (hceiling : custodian.maxRetries ≤ Count.next row.retries) (now : Instant) :
    row.apply (custodian.reclaimChange row now) =
      { row with
        status := .failed
        retries := Count.next row.retries
        deadLettered := true
        lastProcessedAt := some now
        lastError := some (expiryReason row)
        version := row.version + 1 } := by
  simp [Row.apply, reclaimChange, failureChange, Change.of, hceiling]

/-- A look at a message's rows. -/
theorem ends_causeResolved {id : MessageId} (hid : row.causationId = some id)
    (h : scene.Shows store handed) :
    Program.Ends (Scene.answer outside) (causeResolved id : Attempt κ MessagingError Bool) scene
      fun outcome after => after.Shows store handed ∧
        (outcome = .ok true ∧ ¬ Waits row store ∨ outcome = .ok false ∧ Waits row store) := by
  have hlook : Program.Ends (Scene.answer outside)
      (Attempt.calling .store (Program.perform (.outgoing id)) :
        Attempt κ MessagingError (List Status)) scene
      fun outcome after => outcome = .ok (store.outgoingStatuses id) ∧ after.Shows store handed := by
    refine Program.Ends.calling ⟨?_, h.store, (List.append_nil _).trans h.handed⟩
    rw [← h.store]
    rfl
  refine Program.Ends.andThen hlook ?_ ?_
  · rintro _ after ⟨⟨⟩, hafter⟩
    refine ⟨hafter, ?_⟩
    have hwaits : Waits row store ↔ ¬ (store.outgoingStatuses id).all (· == .processed) = true := by
      rw [outgoingStatuses_all_iff hid]
      simp [Waits]
    rw [hwaits]
    cases (store.outgoingStatuses id).all (· == .processed) with
    | true => exact Or.inl ⟨rfl, by simp⟩
    | false => exact Or.inr ⟨rfl, by simp⟩
  · rintro _ _ ⟨⟨⟩, _⟩

theorem ends_swap (hrow : store.get? row.id = some row) (hfits : change.fits row = true)
    (h : scene.Shows store handed) :
    Program.Ends (Scene.answer outside) (swap change : Attempt κ MessagingError (Option Row)) scene
      fun outcome after => outcome = .ok (some (row.apply change)) ∧
        after.Shows (store.withRow (row.apply change)) handed := by
  have hid : row.id = change.id := Change.id_of_fits hfits
  have hswap := Store.swap_of_fits (hid ▸ hrow) hfits
  refine Program.Ends.calling ?_
  refine ⟨?_, ?_, (List.append_nil _).trans h.handed⟩
  · change ((scene.store.swap change).2).mapError _ = _
    rw [h.store, hswap]
    rfl
  · change (scene.store.swap change).1 = _
    rw [h.store, hswap]
    rfl

theorem ends_checked {next : Status} {rest : Unit → Attempt κ MessagingError α}
    {goal : Except MessagingError α → Scene κ → Prop}
    (hlook : row.refusal? next custodian.maxRetries = none)
    (h : Program.Ends (Scene.answer outside) (rest ()) scene goal) :
    Program.Ends (Scene.answer outside)
      (Attempt.ofExcept (custodian.check row next) >>= rest : Attempt κ MessagingError α) scene goal := by
  unfold check
  rw [hlook]
  exact h

theorem ends_claimAt (now : Instant) (hrow : store.get? row.id = some row)
    (hlook : row.refusal? .processing custodian.maxRetries = none) (h : scene.Shows store handed) :
    Program.Ends (Scene.answer outside)
      (custodian.claimAt row now : Attempt κ MessagingError (Option Row)) scene
      fun outcome after => outcome = .ok (some (row.apply (custodian.claimChange row now))) ∧
        after.Shows (store.withRow (row.apply (custodian.claimChange row now))) handed :=
  ends_checked hlook (ends_swap hrow (Change.fits_of row) h)

theorem ends_reclaim {now : Instant} (hrow : store.get? row.id = some row)
    (hlook : hasExpired row now = true) (h : scene.Shows store handed) :
    Program.Ends (Scene.answer outside)
      (custodian.reclaim row now : Attempt κ MessagingError (Option Row)) scene
      fun outcome after => outcome = .ok (some (row.apply (custodian.reclaimChange row now))) ∧
        after.Shows (store.withRow (row.apply (custodian.reclaimChange row now))) handed := by
  unfold reclaim
  rw [if_pos hlook]
  exact ends_swap hrow (custodian.fits_reclaimChange row now) h

theorem ends_defer {next : Instant} (hrow : store.get? row.id = some row)
    (hlook : mayDefer row = true) (h : scene.Shows store handed) :
    Program.Ends (Scene.answer outside)
      (custodian.defer row next : Attempt κ MessagingError (Option Row)) scene
      fun outcome after => outcome = .ok (some (row.apply (custodian.deferChange row next))) ∧
        after.Shows (store.withRow (row.apply (custodian.deferChange row next))) handed := by
  unfold defer
  rw [if_pos hlook]
  exact ends_swap hrow (custodian.fits_deferChange row next) h

/-- A claim is settled at some time of the clock. -/
theorem ends_settlement {next : Status} {change : Instant → Change} (hclaimed : claimed.Claimed)
    (hnext : next = .processed ∨ next = .failed) (hrow : store.get? claimed.id = some claimed)
    (hfits : ∀ clock, (change clock).fits claimed = true) (h : scene.Shows store handed) :
    Program.Ends (Scene.answer outside)
      (do
        Attempt.ofExcept (custodian.check claimed next)
        let clock ← (Program.now κ : Program κ Instant)
        apply (change clock) : Attempt κ MessagingError Row) scene
      fun outcome after => ∃ clock, outcome = .ok (claimed.apply (change clock)) ∧
        after.Shows (store.withRow (claimed.apply (change clock))) handed := by
  refine ends_checked (hclaimed.refusal?_eq_none hnext _) (Program.Ends.lifting ?_)
  refine Program.Ends.mono (ends_now h) fun clock after hafter => ?_
  refine Program.Ends.andThen (ends_swap hrow (hfits clock) hafter) ?_ ?_
  · rintro _ last ⟨⟨⟩, hlast⟩
    exact ⟨clock, rfl, hlast⟩
  · rintro _ _ ⟨⟨⟩, _⟩

end Custodian

namespace Publisher

variable {publisher : Publisher κ} {row claimed : Row} {now : Instant} {report : TickReport}

theorem ends_record {sample : Sample} {f : TickReport → TickReport} (h : scene.Shows store handed) :
    (TickStep.record sample f : TickStep κ Unit).Ends (Scene.answer outside) report scene
      fun outcome _ after => outcome = .ok () ∧ after.Shows store handed :=
  ⟨rfl, ends_count sample h⟩

/-- A settlement that is made is only reported. -/
theorem ends_settled (change : Instant → Change) {outcome : Attempt κ MessagingError Row}
    {f : Option Row → TickStep κ Unit}
    (h : Program.Ends (Scene.answer outside) outcome scene
      fun result after => ∃ clock, result = .ok (claimed.apply (change clock)) ∧
        after.Shows (store.withRow (claimed.apply (change clock))) handed)
    (hrest : ∀ settled last after store, after.Shows store handed →
      (f (some settled)).Ends (Scene.answer outside) last after
        fun result _ final => result = .ok () ∧ final.Shows store handed) :
    (settle outcome >>= f).Ends (Scene.answer outside) report scene
      fun result _ after => result = .ok () ∧
        ∃ clock, after.Shows (store.withRow (claimed.apply (change clock))) handed := by
  have hsettle : (settle outcome).Ends (Scene.answer outside) report scene
      fun result _ after => ∃ clock, result = .ok (some (claimed.apply (change clock))) ∧
        after.Shows (store.withRow (claimed.apply (change clock))) handed := by
    refine TickStep.Ends.lifting (Program.Ends.mono h ?_)
    rintro _ after ⟨clock, rfl, hafter⟩
    exact ⟨clock, rfl, hafter⟩
  refine TickStep.Ends.andThen hsettle ?_ ?_
  · rintro _ last after ⟨clock, ⟨⟩, hafter⟩
    exact TickStep.Ends.mono (hrest _ last after _ hafter) fun _ _ _ ⟨hdone, hfinal⟩ =>
      ⟨hdone, clock, hfinal⟩
  · rintro _ _ _ ⟨_, ⟨⟩, _⟩

section settling

variable (hclaimed : claimed.Claimed) (hrow : store.get? claimed.id = some claimed)
  (h : scene.Shows store handed)

include hclaimed hrow h

theorem ends_giveUp (reason : String) :
    (publisher.giveUp claimed reason).Ends (Scene.answer outside) report scene
      fun result _ after => result = .ok () ∧
        ∃ clock, after.Shows
          (store.withRow (claimed.apply (Custodian.malformedChange claimed reason clock))) handed :=
  ends_settled _ (Custodian.ends_settlement hclaimed (Or.inr rfl) hrow (fun _ => Change.fits_of claimed) h)
    fun _ _ _ _ => ends_record

theorem ends_settleDelivered :
    (publisher.settleDelivered claimed).Ends (Scene.answer outside) report scene
      fun result _ after => result = .ok () ∧
        ∃ clock, after.Shows
          (store.withRow (claimed.apply (Custodian.processedChange claimed clock))) handed :=
  ends_settled _ (Custodian.ends_settlement hclaimed (Or.inl rfl) hrow (fun _ => Change.fits_of claimed) h)
    fun _ _ _ _ => ends_record

theorem ends_settleFailed (reason : String) :
    (publisher.settleFailed claimed reason now).Ends (Scene.answer outside) report scene
      fun result _ after => result = .ok () ∧
        ∃ clock, after.Shows (store.withRow (claimed.apply
          { publisher.custodian.failureChange claimed (some reason) clock with
            nextAttemptAt := publisher.nextAttemptAt now (Count.next claimed.retries) })) handed := by
  refine ends_settled (fun clock =>
    { publisher.custodian.failureChange claimed (some reason) clock with
      nextAttemptAt := publisher.nextAttemptAt now (Count.next claimed.retries) })
    (Custodian.ends_settlement hclaimed (Or.inr rfl) hrow (fun _ => Change.fits_of claimed) h)
    fun settled last after left hafter => ?_
  dsimp only
  split
  · exact ends_record hafter
  · exact ends_record hafter

/-- A claimed row is settled, as the data and the answer have it. -/
theorem ends_deliver (hroom : (Count.next claimed.retries).toNat = claimed.retries.toNat + 1) :
    (publisher.deliver claimed now).Ends (Scene.answer outside) report scene
      fun result _ after => result = .ok () ∧ ∃ ending more changed,
        publisher.Settles now claimed ending more changed ∧
        after.Shows (store.withRow changed) (handed ++ more) := by
  unfold deliver
  refine TickStep.Ends.modifying ?_
  cases hdecode : publisher.router.decode claimed with
  | error error =>
      refine TickStep.Ends.mono (ends_giveUp hclaimed hrow h error.message) ?_
      rintro _ _ after ⟨hdone, clock, hafter⟩
      exact ⟨hdone, .rejected, [], _, .unreadable hdecode clock, hafter.store,
        hafter.handed.trans (List.append_nil _).symm⟩
  | ok envelope =>
      refine TickStep.Ends.lifting
        (Program.Ends.mono (publisher.router.ends_deliver claimed envelope h) ?_)
      rintro result between ⟨more, hdelivers, hbetween⟩
      cases result with
      | ok value =>
          refine TickStep.Ends.mono (ends_settleDelivered hclaimed hrow hbetween) ?_
          rintro _ _ after ⟨hdone, clock, hafter⟩
          exact ⟨hdone, .delivered, more, _, .delivered hdecode hdelivers clock, hafter⟩
      | error error =>
          dsimp only
          split
          · rename_i hretryable
            refine TickStep.Ends.mono (ends_settleFailed hclaimed hrow hbetween error.message) ?_
            rintro _ _ after ⟨hdone, clock, hafter⟩
            exact ⟨hdone, .failed, more, _, .failed hdecode hdelivers hretryable hroom clock, hafter⟩
          · rename_i hpermanent
            refine TickStep.Ends.mono (ends_giveUp hclaimed hrow hbetween error.message) ?_
            rintro _ _ after ⟨hdone, clock, hafter⟩
            exact ⟨hdone, .rejected, more, _, .rejected hdecode hdelivers
              (Bool.eq_false_iff.2 hpermanent) clock, hafter⟩

end settling

/-- A row is due to a publisher, and in the form that the publisher's ceiling gives to it. -/
structure Due (publisher : Publisher κ) (now : Instant) (row : Row) : Prop where
  selected : (publisher.batchQuery now).selects row = true
  bounded : row.Bounded publisher.settings.maxRetries

namespace Due

variable (hdue : publisher.Due now row)

include hdue

theorem live : row.deadLettered = false :=
  ((DueQuery.selects_iff rfl).1 hdue.selected).1

theorem retries : (Count.next row.retries).toNat = row.retries.toNat + 1 :=
  Count.next_toNat_of_lt (hdue.bounded.live hdue.live).1

theorem deferrals : (Count.next row.deferrals).toNat = row.deferrals.toNat + 1 :=
  Count.next_toNat_of_lt (hdue.bounded.live hdue.live).2

theorem free (hheld : row.status ≠ .processing) : row.status = .stored ∨ row.status = .failed := by
  obtain ⟨_, _, hstored | ⟨hfailed | hprocessing, _⟩⟩ := (DueQuery.selects_iff rfl).1 hdue.selected
  · exact Or.inl hstored
  · exact Or.inr hfailed
  · exact absurd hprocessing hheld

theorem hasExpired (hheld : row.status = .processing) : Custodian.hasExpired row now = true :=
  Custodian.hasExpired_iff.2 ⟨hdue.live, hheld, DueQuery.le_of_selects hdue.selected⟩

theorem refusal?_eq_none (hfree : row.status = .stored ∨ row.status = .failed) :
    row.refusal? .processing publisher.settings.maxRetries = none := by
  refine Row.refusal?_eq_none_iff.2 ⟨?_, hdue.live, fun _ => (hdue.bounded.live hdue.live).1⟩
  rcases hfree with hstored | hfailed
  · rw [hstored]
    rfl
  · rw [hfailed]
    rfl

end Due

/-- The turn of a row is over: the store shows what has become of it, and what was handed over is
known. -/
def TurnOver (publisher : Publisher κ) (now : Instant) (store : Store) (row : Row)
    (handed : List (HandOver κ)) (result : Except MessagingError Unit) (after : Scene κ) : Prop :=
  result = .ok () ∧ ∃ ending more changed, publisher.Handles now store row ending more changed ∧
    after.Shows (store.withRow changed) (handed ++ more)

section turn

variable (hdistinct : DistinctNumbers store.rows) (hrow : store.get? row.id = some row)

include hdistinct hrow in
/-- What follows a claim is up to the data and the answer. -/
theorem ends_claimed (hclaims : publisher.Claims now store row claimed) (hclaimed : claimed.Claimed)
    (hroom : (Count.next claimed.retries).toNat = claimed.retries.toNat + 1)
    {between : Scene κ} (hbetween : between.Shows (store.withRow claimed) handed) :
    (publisher.deliver claimed now).Ends (Scene.answer outside) report between
      fun result _ after => publisher.TurnOver now store row handed result after := by
  have hthere : ∃ other ∈ store.rows, other.id = claimed.id :=
    ⟨row, (Store.mem_of_get? hrow).1, hclaims.id_eq.symm⟩
  refine TickStep.Ends.mono (ends_deliver hclaimed (Store.get?_withRow hthere hdistinct) hbetween hroom) ?_
  rintro _ _ after ⟨hdone, ending, more, changed, hsettles, hafter⟩
  rw [Store.withRow_withRow hsettles.id_eq] at hafter
  exact ⟨hdone, ending, more, changed, .claimed hclaims hsettles, hafter⟩

variable (hdue : publisher.Due now row) (h : scene.Shows store handed)

include hrow hdue h

include hdistinct in
theorem ends_takeUp (hfree : row.status = .stored ∨ row.status = .failed)
    (hcause : ¬ Waits row store) :
    (publisher.takeUp row now).Ends (Scene.answer outside) report scene
      fun result _ after => publisher.TurnOver now store row handed result after := by
  refine TickStep.Ends.of (Custodian.ends_claimAt now hrow (hdue.refusal?_eq_none hfree) h) ?_ ?_
  · rintro _ between ⟨⟨⟩, hbetween⟩
    exact ends_claimed hdistinct hrow (.takenUp hfree hcause) ⟨rfl, hdue.live⟩ hdue.retries hbetween
  · rintro _ _ ⟨⟨⟩, _⟩

include hdistinct in
theorem ends_takeOver (hheld : row.status = .processing) :
    (publisher.takeOver row now).Ends (Scene.answer outside) report scene
      fun result _ after => publisher.TurnOver now store row handed result after := by
  have hexpired := DueQuery.le_of_selects hdue.selected
  refine TickStep.Ends.of (Custodian.ends_reclaim hrow (hdue.hasExpired hheld) h) ?_ ?_
  · rintro _ between ⟨⟨⟩, hbetween⟩
    rcases publisher.custodian.reclaimChange_cases row now with ⟨hceiling, heq⟩ | ⟨hroom, heq⟩
    · rw [Custodian.apply_reclaimChange hceiling] at hbetween ⊢
      refine TickStep.Ends.mono (ends_record hbetween) fun _ _ after ⟨hdone, hafter⟩ => ?_
      exact ⟨hdone, .exhausted, [], _, .exhausted hheld hexpired hdue.retries hceiling, hafter.store,
        hafter.handed.trans (List.append_nil _).symm⟩
    · have hclaimed : (row.apply (publisher.custodian.reclaimChange row now)).Claimed := by
        rw [heq]
        exact ⟨hheld, hdue.live⟩
      have hclaims : publisher.Claims now store row
          (row.apply (publisher.custodian.reclaimChange row now)) := by
        rw [heq]
        exact .takenOver hheld hexpired hdue.retries hroom
      dsimp only
      rw [if_neg (by simp [hclaimed.2])]
      refine TickStep.Ends.andThen (ends_record hbetween) ?_ ?_
      · rintro _ _ after ⟨_, hafter⟩
        refine ends_claimed hdistinct hrow hclaims hclaimed ?_ hafter
        rw [heq]
        exact Count.next_toNat_of_lt hroom
      · rintro _ _ _ ⟨⟨⟩, _⟩
  · rintro _ _ ⟨⟨⟩, _⟩

theorem ends_postpone (hfree : row.status = .stored ∨ row.status = .failed)
    (hcause : Waits row store) :
    (publisher.postpone row now).Ends (Scene.answer outside) report scene
      fun result _ after => publisher.TurnOver now store row handed result after := by
  have hlook := Custodian.mayDefer_iff.2 ⟨hdue.live, hfree⟩
  refine TickStep.Ends.of (Custodian.ends_defer hrow hlook h) ?_ ?_
  · rintro _ between ⟨⟨⟩, hbetween⟩
    have hhandles : publisher.Handles now store row .postponed []
        (row.apply (publisher.custodian.deferChange row
          (publisher.nextAttemptAt now (Count.next row.deferrals)))) := by
      rw [publisher.custodian.apply_deferChange hdue.live]
      exact .postponed hfree hcause hdue.deferrals
    have hreported : ∀ {sample : Sample} {f : TickReport → TickReport},
        (TickStep.record sample f : TickStep κ Unit).Ends (Scene.answer outside) report between
          fun result _ after => publisher.TurnOver now store row handed result after := by
      intro sample f
      refine TickStep.Ends.mono (ends_record hbetween) fun result _ after ⟨hdone, hafter⟩ => ?_
      exact ⟨hdone, .postponed, [], _, hhandles, hafter.store,
        hafter.handed.trans (List.append_nil _).symm⟩
    dsimp only
    split
    · exact hreported
    · exact hreported
  · rintro _ _ ⟨⟨⟩, _⟩

include hdistinct in
/-- Whoever has a turn ends in one of the five ways. -/
theorem ends_process :
    (publisher.process row now).Ends (Scene.answer outside) report scene
      fun result _ after => publisher.TurnOver now store row handed result after := by
  unfold process
  split
  · exact ends_takeOver hdistinct hrow hdue h ‹_›
  · rename_i hheld
    have hfree := hdue.free hheld
    split
    · rename_i hnone
      refine ends_takeUp hdistinct hrow hdue h hfree ?_
      rintro ⟨cause, _, hcauses, _⟩
      exact nomatch hnone.symm.trans hcauses.2
    · rename_i id hid
      refine TickStep.Ends.of (Custodian.ends_causeResolved hid h) ?_ ?_
      · rintro resolved between ⟨hbetween, ⟨⟨⟩, hcause⟩ | ⟨⟨⟩, hcause⟩⟩
        · exact ends_takeUp hdistinct hrow hdue hbetween hfree hcause
        · exact ends_postpone hrow hdue hbetween hfree hcause
      · rintro _ _ ⟨_, ⟨⟨⟩, _⟩ | ⟨⟨⟩, _⟩⟩

end turn

/-- A row has its turn: it is as it was fetched, its turn ends in one way, and all else in the store
stays as it is. -/
structure Turn (publisher : Publisher κ) (now : Instant) (before : Store) (row : Row)
    (handed : List (HandOver κ)) (after : Store) : Prop where
  unchanged : before.get? row.id = some row
  ended : ∃! ending, ∃ changed, publisher.Handles now before row ending handed changed ∧
    after = before.withRow changed

/-- Rows have their turns one after another. -/
inductive InTurn (publisher : Publisher κ) (now : Instant) :
    List Row → Store → List (HandOver κ) → Store → Prop where
  | none (store : Store) : InTurn publisher now [] store [] store
  | next {row : Row} {rest : List Row} {before between after : Store} {handed more : List (HandOver κ)}
      (hturn : publisher.Turn now before row handed between)
      (hrest : InTurn publisher now rest between more after) :
      InTurn publisher now (row :: rest) before (handed ++ more) after

/-- Rows that have no turn stay as they are, and so does all else. -/
theorem InTurn.spares {rows : List Row} {before after : Store}
    (h : publisher.InTurn now rows before handed after) :
    after.documents = before.documents ∧ after.issued = before.issued ∧
      after.refusesDocuments = before.refusesDocuments ∧
      ∀ id, (∀ row ∈ rows, row.id ≠ id) → after.get? id = before.get? id := by
  induction h with
  | none store => exact ⟨rfl, rfl, rfl, fun _ _ => rfl⟩
  | @next row rest before between after handed more hturn hrest ih =>
      obtain ⟨ending, ⟨changed, hhandles, rfl⟩, _⟩ := hturn.ended
      obtain ⟨hdocuments, hissued, hrefuses, hrows⟩ := ih
      refine ⟨hdocuments, hissued, hrefuses, fun id hothers => ?_⟩
      obtain ⟨hrow, hothers⟩ := List.forall_mem_cons.1 hothers
      rw [hrows id hothers]
      exact Store.get?_withRow_ne (hhandles.id_eq ▸ hrow)

theorem ends_processAll {rows : List Row} (hdue : ∀ row ∈ rows, publisher.Due now row)
    (hrows : ∀ row ∈ rows, row ∈ store.rows) (hapart : DistinctNumbers rows)
    (hdistinct : DistinctNumbers store.rows) (h : scene.Shows store handed) (report : TickReport) :
    (publisher.processAll now rows report).Ends (Scene.answer outside) scene
      fun _ after => ∃ more last, publisher.InTurn now rows store more last ∧
        after.Shows last (handed ++ more) := by
  induction rows generalizing store handed scene report with
  | nil => exact ⟨[], store, .none store, h.store, h.handed.trans (List.append_nil _).symm⟩
  | cons row rest ih =>
      obtain ⟨hfirst, hrest⟩ := List.forall_mem_cons.1 hdue
      obtain ⟨hthere, hothers⟩ := List.forall_mem_cons.1 hrows
      obtain ⟨hnew, hapart⟩ := List.pairwise_cons.1 hapart
      have hrow : store.get? row.id = some row := (Store.get?_eq_some_iff hdistinct).2 ⟨hthere, rfl⟩
      refine Program.Ends.bind (Program.Ends.mono (ends_process hdistinct hrow hfirst h) ?_)
      rintro ⟨outcome, last⟩ between ⟨rfl, ending, more, changed, hhandles, hbetween⟩
      have hkept : ∀ other ∈ rest, other ∈ (store.withRow changed).rows := by
        intro other hother
        have hplace : ∃ there ∈ store.rows, there.id = changed.id :=
          ⟨row, hthere, hhandles.id_eq.symm⟩
        refine (Store.mem_changeRow hplace).2 (Or.inr ⟨hothers other hother, ?_⟩)
        rw [hhandles.id_eq]
        exact (hnew other hother).symm
      refine Program.Ends.mono (ih hrest hkept hapart (Store.withRow_distinct hdistinct) hbetween last) ?_
      rintro _ after ⟨later, final, hturns, hafter⟩
      refine ⟨more ++ later, final, .next ⟨hrow, ending, ⟨changed, hhandles, rfl⟩, ?_⟩ hturns,
        hafter.store, hafter.handed.trans (List.append_assoc ..)⟩
      rintro another ⟨_, hother, _⟩
      exact hother.unique hhandles

end Publisher

end calls

/-- In every store that clients with the ceiling of the publisher can bring about, and whatever the
bus and the handlers answer: a tick that nobody disturbs handles its batch oldest first.  Each row is
as it was fetched when it has its turn, and the turn ends in one way. -/
theorem undisturbed_tick {M : Count} (hM : 0 < M) (actions : List (Action κ Errand))
    {publisher : Publisher κ} (hmax : publisher.settings.maxRetries = M) (now : Instant)
    (outside : Nat → Manner) :
    (((clientsSharing κ M).world actions).store.due (publisher.batchQuery now)).Pairwise
        Row.Precedes ∧
      ∃ report last,
        Program.run (Scene.answer outside) (publisher.tickAt now).run
          ⟨((clientsSharing κ M).world actions).store, 0, []⟩ = (.ok report, last) ∧
        publisher.InTurn now
          (((clientsSharing κ M).world actions).store.due (publisher.batchQuery now))
          ((clientsSharing κ M).world actions).store last.handed last.store ∧
        last.store.documents = ((clientsSharing κ M).world actions).store.documents ∧
        ∀ id, (∀ row ∈ ((clientsSharing κ M).world actions).store.due (publisher.batchQuery now),
            row.id ≠ id) →
          last.store.get? id = ((clientsSharing κ M).world actions).store.get? id := by
  have hdistinct := (World.sound (clientsSharing κ M) actions).committed_distinct
  have hbounded := (clientsSharing_bounded (κ := κ) hM actions).1
  generalize ((clientsSharing κ M).world actions).store = store at hdistinct hbounded ⊢
  have hsorted : (store.due (publisher.batchQuery now)).Pairwise Row.Precedes :=
    Store.due_sorted hdistinct
  have hdue : ∀ row ∈ store.due (publisher.batchQuery now), publisher.Due now row := by
    intro row hrow
    obtain ⟨hthere, hselected⟩ := Store.mem_due hrow
    exact ⟨hselected, hmax ▸ hbounded row hthere⟩
  have hfetch : (Scene.answer outside (.due (publisher.batchQuery now) : Call κ) ⟨store, 0, []⟩).1 =
      .ok (store.due (publisher.batchQuery now)) := rfl
  have htick : Program.Ends (Scene.answer outside) (publisher.tickAt now) ⟨store, 0, []⟩
      fun outcome after => ∃ report, outcome = .ok report ∧
        publisher.InTurn now (store.due (publisher.batchQuery now)) store after.handed after.store := by
    refine Publisher.ends_tick hfetch (Program.Ends.mono (Publisher.ends_processAll hdue
      (fun row hrow => (Store.mem_due hrow).1) (hsorted.imp fun h => h.2) hdistinct ⟨rfl, rfl⟩ _) ?_)
    rintro report after ⟨more, last, hturns, hstore, hhanded⟩
    refine ⟨report, rfl, ?_⟩
    change publisher.InTurn now _ store (after.handed ++ []) after.store
    rw [hstore, hhanded, List.append_nil]
    exact hturns
  obtain ⟨report, hreport, hturns⟩ := htick
  obtain ⟨hdocuments, _, _, hrows⟩ := hturns.spares
  exact ⟨hsorted, report, _, Prod.ext hreport rfl, hturns, hdocuments, hrows⟩

/-- A client has claimed a parcel, and another parcel that it has caused is committed. -/
def parcelHeldBack : List (Action Unit Errand) :=
  let first := parcel 1 none
  let second := parcel 2 (some first.messageId)
  [.call (.commit ⟨[Row.fresh ⟨2⟩ second epoch], []⟩) { clock := epoch },
    .call (.stage Transaction.empty second) { clock := epoch },
    .call .begin { clock := epoch },
    .work 0 { clock := epoch },
    .start ⟨Custodian.standard, .claimAt (Row.fresh ⟨1⟩ first epoch) epoch⟩,
    .call (.commit ⟨[Row.fresh ⟨1⟩ first epoch], []⟩) { clock := epoch },
    .call (.stage Transaction.empty first) { clock := epoch },
    .call .begin { clock := epoch }]

def plain : Publisher Unit := ⟨⟨Registry.empty, Table.empty⟩, {}⟩

/-- The second parcel is postponed. -/
theorem parcel_held_back :
    (Program.run (Scene.answer fun _ => { clock := epoch }) (plain.tickAt epoch).run
        ⟨((clientsSharing Unit 5).world parcelHeldBack).store, 0, []⟩).2.store.rows.map
          (fun row => (row.status, row.deferrals)) = [(.processing, 0), (.stored, 1)] ∧
      (((clientsSharing Unit 5).world parcelHeldBack).store.due (plain.batchQuery epoch)).Pairwise
        Row.Precedes ∧
      ∃ report last,
        Program.run (Scene.answer fun _ => { clock := epoch }) (plain.tickAt epoch).run
          ⟨((clientsSharing Unit 5).world parcelHeldBack).store, 0, []⟩ = (.ok report, last) ∧
        plain.InTurn epoch
          (((clientsSharing Unit 5).world parcelHeldBack).store.due (plain.batchQuery epoch))
          ((clientsSharing Unit 5).world parcelHeldBack).store last.handed last.store ∧
        last.store.documents = ((clientsSharing Unit 5).world parcelHeldBack).store.documents ∧
        ∀ id, (∀ row ∈ ((clientsSharing Unit 5).world parcelHeldBack).store.due
            (plain.batchQuery epoch), row.id ≠ id) →
          last.store.get? id = ((clientsSharing Unit 5).world parcelHeldBack).store.get? id :=
  have hmax : plain.settings.maxRetries = 5 := rfl
  ⟨by decide +kernel, undisturbed_tick (by decide) parcelHeldBack hmax epoch _⟩

end Courier
