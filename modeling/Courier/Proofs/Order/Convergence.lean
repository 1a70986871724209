import Courier.Proofs.Interleaving.Narrower
import Courier.Proofs.Order.Ledger
import Courier.Proofs.Order.Summaries
/-
Whether summaries catch up with their orders.  Once every update is processed, an order has a summary
exactly if it has a document.  The two name the same state unless the update of the placing came last:
from a worker that was late, or once more because the first claim was never settled.
-/
namespace Courier

variable {κ : Type}

theorem Notice.update_inj {one two : SummaryUpdate}
    (h : Notice.of .internal one = Notice.of .internal two) : one = two := by
  have hread := congrArg (SummaryUpdate.ofJson? ∘ Notice.payload) h
  change SummaryUpdate.ofJson? one.toJson = SummaryUpdate.ofJson? two.toJson at hread
  rw [SummaryUpdate.ofJson?_toJson, SummaryUpdate.ofJson?_toJson] at hread
  exact Option.some.inj hread

/-- The one message of an event that stays inside is the update of the order's summary. -/
theorem OrderEvent.mem_notices {event : OrderEvent} {notice : Notice}
    (hinside : notice.delivery ≠ .outbox) :
    notice ∈ event.notices ↔ notice = Notice.of .internal (OrderReaction.summaryUpdate event) := by
  have hout : ∀ {α : Type} [Message α] (message : α), notice ≠ Notice.of .outbox message := by
    rintro α _ message rfl
    exact hinside rfl
  cases event with
  | placed id customer totalCents => simp [notices, OrderReaction.summaryUpdate, hout]
  | cancelled id reason => simp [notices, OrderReaction.summaryUpdate, hout]

namespace Standing

def events (id : OrderId) : Standing → List OrderEvent
  | .absent => []
  | .placed placement => [.placed id placement.customer placement.totalCents]
  | .cancelled placement reason =>
      [.placed id placement.customer placement.totalCents, .cancelled id reason]

theorem notices_eq (standing : Standing) (id : OrderId) :
    standing.notices id = (standing.events id).flatMap OrderEvent.notices := by
  cases standing <;> rfl

/-- The updates of its summary that an order has asked for so far. -/
def updates (id : OrderId) (standing : Standing) : List SummaryUpdate :=
  (standing.events id).map OrderReaction.summaryUpdate

theorem mem_updates {standing : Standing} {id : OrderId} {update : SummaryUpdate} :
    update ∈ standing.updates id ↔ Notice.of .internal update ∈ standing.notices id := by
  have hinside : (Notice.of .internal update).delivery ≠ .outbox := nofun
  simp only [updates, notices_eq, List.mem_map, List.mem_flatMap, OrderEvent.mem_notices hinside]
  refine exists_congr fun event => and_congr_right fun _ => ⟨?_, fun h => ?_⟩
  · rintro rfl
    rfl
  · exact (Notice.update_inj h).symm

end Standing

/-- An order has asked for the updates that committed rows tell of, and for no others. -/
theorem Store.Stands.mem_updates {store : Store} {id : OrderId} {standing : Standing}
    (h : store.Stands id standing) {update : SummaryUpdate} :
    update ∈ standing.updates id ↔
      (∃ row ∈ store.rows, row.notice = Notice.of .internal update) ∧ update.orderId = id := by
  have hnamed : (Notice.of .internal update).order? = some update.orderId :=
    Notice.order?_of (by decide) rfl
  rw [Standing.mem_updates, ← h.notices.mem_iff, Store.noticesOf, List.mem_filter, List.mem_map,
    hnamed]
  simp

/-- The update that came last is that of the placing, though the cancelling was told of before. -/
def relapsed : List SummaryUpdate → Bool
  | [] => false
  | latest :: earlier => latest.state == .placed && earlier.any (·.state == .cancelled)

/-- Whoever has received exactly the updates of an order, however often and in whatever order, knows
of the order, and knows its state unless he was told of the placing last of all. -/
theorem Standing.known_of_updates {standing : Standing} {id : OrderId}
    {received : List SummaryUpdate} (h : ∀ update, update ∈ received ↔ update ∈ standing.updates id) :
    (received.head?.isSome = (standing.order? id).isSome) ∧
      (received.head?.map (·.state) = (standing.order? id).map (·.state) ↔
        relapsed received = false) := by
  cases standing with
  | absent =>
      obtain rfl : received = [] := List.eq_nil_iff_forall_not_mem.2 fun update hupdate =>
        List.not_mem_nil ((h update).1 hupdate)
      simp [order?, relapsed]
  | placed placement =>
      have hplaced : ∀ update ∈ received, update.state = .placed := by
        intro update hupdate
        obtain rfl := List.mem_singleton.1 ((h update).1 hupdate)
        rfl
      have hsome := (h _).2 (List.mem_singleton_self _)
      cases received with
      | nil => cases hsome
      | cons latest earlier =>
          obtain ⟨hlatest, hearlier⟩ := List.forall_mem_cons.1 hplaced
          have hnone : earlier.any (·.state == .cancelled) = false := by
            refine List.any_eq_false.2 fun update hupdate => ?_
            simp [hearlier update hupdate]
          simp [order?, relapsed, hlatest, hnone]
  | cancelled placement reason =>
      have hcancelled := (h ⟨id, .cancelled, none, none⟩).2 (List.mem_pair.2 (Or.inr rfl))
      cases received with
      | nil => cases hcancelled
      | cons latest earlier =>
          cases hlatest : latest.state with
          | cancelled => simp [order?, relapsed, hlatest]
          | placed =>
              have hbefore : earlier.any (·.state == .cancelled) = true := by
                rcases List.mem_cons.1 hcancelled with rfl | hearlier
                · cases hlatest
                · exact List.any_eq_true.2 ⟨_, hearlier, rfl⟩
              simp [order?, relapsed, hlatest, hbefore]

namespace OrderTask

def shift? : OrderTask κ → Option (Shift κ)
  | .tick shift => some shift
  | _ => none

/-- Whatever a command commits announces an event of an order. -/
theorem Files.announces {task : OrderTask κ} {found : Option Document} {tx : Transaction}
    (h : task.Files found tx) : ∃ order event, tx.Files order event := by
  cases task with
  | place ctx id customer totalCents =>
      obtain ⟨order, _, _, hfiles⟩ := h
      exact ⟨order, _, hfiles⟩
  | cancel ctx id reason =>
      obtain ⟨_, _, _, cancelled, _, _, _, hfiles⟩ := h
      exact ⟨cancelled, _, hfiles⟩
  | tick shift => exact h.elim

/-- Commands neither change the status of messages nor deliver them; ticks keep to their protocol. -/
theorem keeps_shift (task : OrderTask κ) :
    task.program.Keeps (Shift.protocolOf task.shift?) (fun _ _ => True) Courier.Phase.start := by
  have haside : task.orderId? ≠ none →
      task.program.Keeps Shift.aside (fun _ _ => True) Courier.Phase.start := by
    intro hcommand
    refine (keeps_program task).elsewhere (fun phase call hallows place => ?_) _
    cases call with
    | swap change => exact absurd hallows hcommand
    | publish routingKey envelope => exact absurd hallows hcommand
    | handle command => exact absurd hallows hcommand
    | _ => exact ⟨rfl, rfl⟩
  cases task with
  | place ctx id customer totalCents => exact haside nofun
  | cancel ctx id reason => exact haside nofun
  | tick shift =>
      exact Program.Keeps.bind ((Publisher.keeps_tick shift).mono fun _ _ _ => trivial)

end OrderTask

/-- Commands on orders and ticks of publishers run side by side, and others look on. -/
def reading (κ : Type) : Rules κ (OrderTask κ) OrderTask.Outcome :=
  { ordering κ with
    bystander := fun call => call.transaction?.isNone && !call.isSwap && !call.isHandOver }

section reading

variable {commands : SummaryCommands κ} {actions : List (Action κ (OrderTask κ))}

theorem reading_within : (reading κ).Within (ordering κ) where
  admits _ _ h := h
  program := rfl
  bystander _ h := (Bool.and_eq_true_iff.1 (Bool.and_eq_true_iff.1 h).1).1
  mishap _ _ h := h
  clears h := h

theorem reading_publishes : (reading κ).Publishes OrderTask.shift? where
  follows := OrderTask.keeps_shift
  bystander _ h := by
    obtain ⟨hlook, hover⟩ := Bool.and_eq_true_iff.1 h
    obtain ⟨_, hswap⟩ := Bool.and_eq_true_iff.1 hlook
    exact ⟨by simpa using hswap, by simpa using hover⟩
  lasting := rfl

theorem reading_standing (actions : List (Action κ (OrderTask κ))) (id : OrderId) :
    ∃ standing, ((reading κ).world actions).store.Stands id standing := by
  obtain ⟨others, hsame⟩ := reading_within.world actions
  rw [hsame]
  exact (ledger others).standing id

theorem ordered_announced (actions : List (Action κ (OrderTask κ))) {draft : Draft}
    (h : (ordered actions).store.Has draft) :
    ∃ event : OrderEvent, draft.notice ∈ event.notices := by
  refine Rules.call_induction rfl (fun store _ _ => ∀ draft, store.Has draft →
    ∃ event : OrderEvent, draft.notice ∈ event.notices) ?_ ?_ actions draft h
  · intro draft hnone
    cases hnone
  · intro earlier moment ih hmakes draft hdraft
    rcases hmakes.stores with ⟨_, hsame⟩ | ⟨tx, _, hcall, _, hrows⟩
    · rw [Store.Has, hsame] at hdraft
      exact ih draft hdraft
    · obtain ⟨row, hrow, rfl⟩ := List.mem_map.1 hdraft
      rcases List.mem_append.1 (hrows.mem_iff.1 hrow) with hold | hnew
      · exact ih row.draft (Store.has_of_mem hold)
      · obtain ⟨_, _, hfiles⟩ := files_of_commit hmakes hcall
        obtain ⟨_, event, hrows⟩ := hfiles.announces
        refine ⟨event, ?_⟩
        rw [← hrows.rows]
        exact List.mem_map_of_mem (f := Row.notice) hnew

/-- Every message that is committed announces an event of an order. -/
theorem reading_announced (actions : List (Action κ (OrderTask κ))) {draft : Draft}
    (h : ((reading κ).world actions).store.Has draft) :
    ∃ event : OrderEvent, draft.notice ∈ event.notices := by
  obtain ⟨others, hsame⟩ := reading_within.world actions
  rw [hsame] at h
  exact ordered_announced others h

/-- Every tick that hands rows over can have updates handled. -/
theorem reading_handled
    (hhandled : ∀ shift, .start (.tick shift) ∈ actions →
      commands.HandledBy shift.publisher.router.registry)
    {moment : Moment κ (OrderTask κ)} (hmoment : moment ∈ ((reading κ).world actions).history)
    (worker : Worker (OrderTask κ)) (shift : Shift κ) (hworker : moment.worker = some worker)
    (hshift : worker.task.shift? = some shift) :
    commands.HandledBy shift.publisher.router.registry := by
  obtain ⟨rest, hjob⟩ :=
    (World.keeping reading_publishes.follows actions).worker moment hmoment worker hworker
  have hstarted := Rules.started (List.mem_of_getElem? hjob)
  refine hhandled shift ?_
  cases htask : worker.task with
  | tick own =>
      rw [htask] at hshift hstarted
      obtain rfl := Option.some.inj hshift
      exact hstarted
  | _ =>
      rw [htask] at hshift
      cases hshift

section converging

variable
  (hhandled : ∀ shift, .start (.tick shift) ∈ actions →
    commands.HandledBy shift.publisher.router.registry)
  {id : OrderId} {standing : Standing}
  (hstanding : ((reading κ).world actions).store.Stands id standing) {update : SummaryUpdate}

include hhandled hstanding

/-- Only updates are applied that the order has asked for. -/
theorem asked_of_applied
    (hupdate : update ∈ updatesOf id (updates commands ((reading κ).world actions).history)) :
    update ∈ standing.updates id := by
  obtain ⟨⟨moment, hmoment, time, htaken⟩, hid⟩ := mem_updatesOf.1 hupdate
  obtain ⟨hdelivers, command, hcall, _⟩ := Moment.of_update? htaken
  obtain ⟨row, hhas, hhanded⟩ :=
    (reading_publishes.handovers actions).committed moment hmoment hdelivers
  obtain ⟨event, hevent⟩ := reading_announced actions hhas
  have hinside : row.draft.notice.delivery ≠ .outbox := by
    obtain ⟨_, _, _, _, hhands⟩ := hhanded.hands
    obtain ⟨_, _, _, ⟨_, hpublish⟩ | ⟨hinside, _⟩⟩ := hhands.cases
    · rw [hcall] at hpublish
      cases hpublish
    · exact hinside
  have hnotice := (OrderEvent.mem_notices hinside).1 hevent
  obtain ⟨_, hsame⟩ := hhanded.update? (reading_handled hhandled hmoment) hnotice
  obtain ⟨rfl, _⟩ := Prod.mk.inj (Option.some.inj (htaken.symm.trans hsame))
  obtain ⟨committed, hcommitted, hdraft⟩ := List.mem_map.1 hhas
  refine hstanding.mem_updates.2 ⟨⟨committed, hcommitted, ?_⟩, hid⟩
  rw [Row.notice, hdraft]
  exact hnotice

/-- What is processed inside was applied. -/
theorem applied_of_asked
    (hprocessed : ∀ row ∈ ((reading κ).world actions).store.rows,
      row.delivery = .internal → row.status = .processed)
    (hupdate : update ∈ standing.updates id) :
    update ∈ updatesOf id (updates commands ((reading κ).world actions).history) := by
  obtain ⟨⟨row, hrow, hnotice⟩, hid⟩ := hstanding.mem_updates.1 hupdate
  have hinside : row.delivery = .internal := congrArg Notice.delivery hnotice
  obtain ⟨moment, hmoment, handed, hdraft, hhanded⟩ :=
    (reading_publishes.handovers actions).processed row hrow (hprocessed row hrow hinside)
  have hsame : handed.notice = Notice.of .internal update := by
    rw [← hnotice, Row.notice, hdraft]
    rfl
  obtain ⟨time, htaken⟩ := hhanded.update? (reading_handled hhandled hmoment) hsame
  exact mem_updatesOf.2 ⟨⟨moment, hmoment, time, htaken⟩, hid⟩

end converging

/-- Commands on orders and ticks of publishers run in any interleaving, any call may fail, and claims
may be outlived.  Once every update is processed, readers see an order if and only if there is one, and
they see its state unless the update of its placing was the last that was handed over, after that of
its cancelling. -/
theorem summaries_converge (commands : SummaryCommands κ) (actions : List (Action κ (OrderTask κ)))
    (hhandled : ∀ shift, .start (.tick shift) ∈ actions →
      commands.HandledBy shift.publisher.router.registry)
    (hprocessed : ∀ row ∈ ((reading κ).world actions).store.rows,
      row.delivery = .internal → row.status = .processed) (id : OrderId) :
    ∃ order?,
      OrderDesk.ofDocument? (((reading κ).world actions).store.document? OrderDesk.collection
        id.text) = .ok order? ∧
      ((summaries commands ((reading κ).world actions).history).get? id).isSome = order?.isSome ∧
      ((summaries commands ((reading κ).world actions).history).state? id = order?.map (·.state) ↔
        relapsed (updatesOf id (updates commands ((reading κ).world actions).history)) = false) := by
  obtain ⟨standing, hstanding⟩ := reading_standing actions id
  have hreceived : ∀ update,
      update ∈ updatesOf id (updates commands ((reading κ).world actions).history) ↔
        update ∈ standing.updates id := fun update =>
    ⟨asked_of_applied hhandled hstanding, applied_of_asked hhandled hstanding hprocessed⟩
  have hshown := OrderSummaries.state?_ofUpdates
    (updates commands ((reading κ).world actions).history) id
  obtain ⟨hknown, hstate⟩ := Standing.known_of_updates hreceived
  refine ⟨standing.order? id, hstanding.ofDocument?_eq, ?_, ?_⟩
  · rw [← hknown]
    have hsome := congrArg Option.isSome hshown
    rwa [OrderSummaries.state?, Option.isSome_map, Option.isSome_map] at hsome
  · rw [← hstate]
    exact Eq.congr_left hshown

end reading

section runs

def updating : SummaryCommands SummaryUpdate :=
  ⟨id, some, fun _ => rfl⟩

def atSecond (seconds : Nat) : Instant :=
  epoch.after (Span.ofSeconds seconds)

/-- A task is started, and its job makes so many calls, one each second.  What it mints is new. -/
def carriedOut (task : OrderTask SummaryUpdate) (number second calls : Nat) :
    List (Action SummaryUpdate (OrderTask SummaryUpdate)) :=
  ((List.range calls).reverse.map fun call =>
    .work number { clock := atSecond (second + call), minted := Uuid.ofNat (100 * number + call) }) ++
    [.start task]

def tickAt (second : Nat) : OrderTask SummaryUpdate :=
  .tick ⟨⟨⟨Registry.empty.registerOrders updating.command, Table.empty⟩, {}⟩, atSecond second⟩

/-- Order 7 is placed, and one tick delivers the message that leaves. -/
def placedSeven : List (Action SummaryUpdate (OrderTask SummaryUpdate)) :=
  carriedOut (tickAt 8) 1 16 8 ++
    carriedOut (.place ⟨⟨Uuid.nil⟩, none⟩ ⟨7⟩ "Ada" 100) 0 0 15

def cancelledSeven : List (Action SummaryUpdate (OrderTask SummaryUpdate)) :=
  carriedOut (tickAt 60) 5 64 8 ++ carriedOut (tickAt 48) 4 56 8 ++
    carriedOut (.cancel ⟨⟨Uuid.nil⟩, none⟩ ⟨7⟩ "changed mind") 3 40 15

/-- Each update is delivered and settled before the next. -/
def toldInOrder : List (Action SummaryUpdate (OrderTask SummaryUpdate)) :=
  cancelledSeven ++ carriedOut (tickAt 24) 2 24 8 ++ placedSeven

/-- The first update is delivered, but the store does not record it.  So its claim runs out while the
second is delivered, and it is taken over and delivered again. -/
def toldAgain : List (Action SummaryUpdate (OrderTask SummaryUpdate)) :=
  carriedOut (tickAt 330) 6 330 8 ++ cancelledSeven ++
    [.work 2 { clock := atSecond 29, mishap := some (.refused (.backend "connection reset")) }] ++
    carriedOut (tickAt 24) 2 24 5 ++ placedSeven

theorem start_mem_carriedOut {task other : OrderTask SummaryUpdate} {number second calls : Nat} :
    .start other ∈ carriedOut task number second calls ↔ other = task := by
  simp [carriedOut]

theorem handled_tickAt {second : Nat} {shift : Shift SummaryUpdate}
    (h : .tick shift = tickAt second) : updating.HandledBy shift.publisher.router.registry := by
  obtain rfl := OrderTask.tick.inj h
  exact updating.handledBy_registerOrders Registry.empty

theorem handled_toldInOrder (shift : Shift SummaryUpdate) (h : .start (.tick shift) ∈ toldInOrder) :
    updating.HandledBy shift.publisher.router.registry := by
  simp only [toldInOrder, cancelledSeven, placedSeven, List.mem_append, start_mem_carriedOut,
    reduceCtorEq, or_false] at h
  rcases h with ((h | h) | h) | h <;> exact handled_tickAt h

theorem summaries_converge_toldInOrder :
    (∀ row ∈ ((reading SummaryUpdate).world toldInOrder).store.rows,
      row.delivery = .internal → row.status = .processed) ∧
    relapsed (updatesOf ⟨7⟩
      (updates updating ((reading SummaryUpdate).world toldInOrder).history)) = false ∧
    ∃ order?,
      OrderDesk.ofDocument? (((reading SummaryUpdate).world toldInOrder).store.document?
        OrderDesk.collection (⟨7⟩ : OrderId).text) = .ok order? ∧
      ((summaries updating ((reading SummaryUpdate).world toldInOrder).history).get? ⟨7⟩).isSome =
        order?.isSome ∧
      (summaries updating ((reading SummaryUpdate).world toldInOrder).history).state? ⟨7⟩ =
        order?.map (·.state) := by
  have hrun : (∀ row ∈ ((reading SummaryUpdate).world toldInOrder).store.rows,
      row.delivery = .internal → row.status = .processed) ∧
      relapsed (updatesOf ⟨7⟩
        (updates updating ((reading SummaryUpdate).world toldInOrder).history)) = false := by
    decide +kernel
  obtain ⟨hprocessed, hkept⟩ := hrun
  obtain ⟨order?, hread, hsome, hstate⟩ :=
    summaries_converge updating toldInOrder handled_toldInOrder hprocessed ⟨7⟩
  exact ⟨hprocessed, hkept, order?, hread, hsome, hstate.2 hkept⟩

theorem handled_toldAgain (shift : Shift SummaryUpdate) (h : .start (.tick shift) ∈ toldAgain) :
    updating.HandledBy shift.publisher.router.registry := by
  simp only [toldAgain, cancelledSeven, placedSeven, List.mem_append, start_mem_carriedOut,
    List.mem_singleton, reduceCtorEq, or_false] at h
  rcases h with ((h | h | h) | h) | h <;> exact handled_tickAt h

/-- Every update was processed, and a cancelled order is shown as placed for good. -/
theorem toldAgain_relapses :
    (∀ shift, .start (.tick shift) ∈ toldAgain →
      updating.HandledBy shift.publisher.router.registry) ∧
    (∀ row ∈ ((reading SummaryUpdate).world toldAgain).store.rows,
      row.delivery = .internal → row.status = .processed) ∧
    (OrderDesk.ofDocument? (((reading SummaryUpdate).world toldAgain).store.document?
      OrderDesk.collection (⟨7⟩ : OrderId).text)).map (Option.map (·.state)) =
        .ok (some .cancelled) ∧
    (summaries updating ((reading SummaryUpdate).world toldAgain).history).state? ⟨7⟩ =
      some .placed := by
  refine ⟨handled_toldAgain, ?_⟩
  decide +kernel

end runs

end Courier
