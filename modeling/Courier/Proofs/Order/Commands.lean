import Courier.Order.Desk
import Courier.Proofs.Order.Wire
import Courier.Proofs.Publishing.Ticks
import Courier.Proofs.Reaction.Notices
/-
Commands on orders, each on its own.  Whatever it is answered, a command looks for its order in a
fresh transaction, commits nothing but the order it was asked for with the messages of one event, and
succeeds exactly when it has committed.
-/
namespace Courier

variable {κ σ : Type}

def OrderEvent.notices : OrderEvent → List Notice
  | .placed id customer totalCents =>
      [.of .outbox (OrderPlaced.mk id customer totalCents),
        .of .internal (SummaryUpdate.mk id .placed (some customer) (some totalCents))]
  | .cancelled id reason =>
      [.of .outbox (OrderCancelled.mk id reason),
        .of .internal (SummaryUpdate.mk id .cancelled none none)]

namespace OrderReaction

variable {protocol : Protocol κ σ} {phase : σ} (hstaging : protocol.Staging phase)
include hstaging

theorem stages_publishPlaced : publishPlaced.Stages protocol phase fun
    | .placed id customer totalCents => [.of .outbox (OrderPlaced.mk id customer totalCents)]
    | .cancelled _ _ => [] := by
  rintro ctx ⟨event, metadata⟩
  cases event with
  | placed id customer totalCents =>
      exact (Staging.stages_event hstaging ctx (OrderPlaced.mk id customer totalCents)).bind
        fun _ => .pure ()
  | cancelled id reason => exact .pure ()

theorem stages_publishCancelled : publishCancelled.Stages protocol phase fun
    | .placed _ _ _ => []
    | .cancelled id reason => [.of .outbox (OrderCancelled.mk id reason)] := by
  rintro ctx ⟨event, metadata⟩
  cases event with
  | placed id customer totalCents => exact .pure ()
  | cancelled id reason =>
      exact (Staging.stages_event hstaging ctx (OrderCancelled.mk id reason)).bind fun _ => .pure ()

theorem stages_scheduleSummary : scheduleSummary.Stages protocol phase fun event =>
    [.of .internal (summaryUpdate event)] := fun ctx event =>
  (Staging.stages_schedule hstaging ctx [summaryUpdate event.message]).bind fun _ => .pure ()

/-- The reactions to an event announce it. -/
theorem stages_all : ∃ notices, List.Forall₂ (Reaction.Stages protocol phase) all notices ∧
    ∀ event, (notices.flatMap fun notices => notices event) = event.notices := by
  refine ⟨_, .cons (stages_publishPlaced hstaging) (.cons (stages_publishCancelled hstaging)
    (.cons (stages_scheduleSummary hstaging) .nil)), fun event => ?_⟩
  cases event with
  | placed id customer totalCents => rfl
  | cancelled id reason => rfl

end OrderReaction

theorem Order.eq_of_place {id : OrderId} {customer : String} {totalCents : Int64} {now : Instant}
    {order : Order} (h : Order.place id customer totalCents now = .ok order) :
    order = ⟨id, customer, totalCents, .placed, now, none, 0,
      EventRecorder.empty.record (.placed id customer totalCents) now⟩ := by
  unfold place at h
  split at h
  · cases h
  · split at h
    · cases h
    · exact (Except.ok.inj h).symm

theorem Order.raised_of_cancel {order cancelled : Order} {reason : String} {now : Instant}
    (hevents : order.events = EventRecorder.empty) (h : order.cancel reason now = .ok cancelled) :
    ∃ sequence, cancelled.events.pending = [⟨.cancelled order.id reason, now, sequence⟩] := by
  unfold cancel at h
  split at h
  · cases h
    exact ⟨order.events.nextSequence, by simp only [hevents]; rfl⟩
  · cases h

namespace OrderDesk

/-- What is loaded has raised nothing. -/
theorem events_ofDocument {document : Document} {order : Order}
    (h : ofDocument document = .ok order) : order.events = EventRecorder.empty := by
  unfold ofDocument at h
  split at h
  · rename_i stored hstored
    have hnothing := Order.raised_nothing hstored
    cases h
    exact hnothing
  · cases h

theorem ofDocument?_eq_some {document? : Option Document} {order : Order}
    (h : ofDocument? document? = .ok (some order)) :
    ∃ document, document? = some document ∧ ofDocument document = .ok order := by
  cases document? with
  | none => cases h
  | some document =>
      refine ⟨document, rfl, ?_⟩
      cases hread : ofDocument document with
      | error error =>
          rw [ofDocument?, hread] at h
          cases h
      | ok read =>
          rw [ofDocument?, hread] at h
          cases h
          rfl

end OrderDesk

/-- A transaction that writes the document of an order, and the messages that announce an event. -/
structure Transaction.Files (tx : Transaction) (order : Order) (event : OrderEvent) : Prop where
  rows : tx.rows.map Row.notice = event.notices
  documents : ∃ now, tx.documents = [⟨order.version, ⟨OrderDesk.collection, order.id.text,
    order.version + 1, order.toJson, now⟩⟩]

/-- What goes on around orders: commands on them, and ticks of publishers. -/
inductive OrderTask (κ : Type) where
  | place (ctx : Context) (id : OrderId) (customer : String) (totalCents : Int64)
  | cancel (ctx : Context) (id : OrderId) (reason : String)
  | tick (shift : Shift κ)

namespace OrderTask

inductive Outcome where
  | order (outcome : Except DeskError Order)
  | report (outcome : Except PublisherError TickReport)

def program : OrderTask κ → Program κ Outcome
  | .place ctx id customer totalCents =>
      .order <$> (OrderDesk.place ctx id customer totalCents).run
  | .cancel ctx id reason => .order <$> (OrderDesk.cancel ctx id reason).run
  | .tick shift => .report <$> (shift.publisher.tickAt shift.now).run

def orderId? : OrderTask κ → Option OrderId
  | .place _ id _ _ => some id
  | .cancel _ id _ => some id
  | .tick _ => none

/-- What a command commits, given the document that it has found. -/
def Files (found : Option Document) (tx : Transaction) : OrderTask κ → Prop
  | .place _ id customer totalCents =>
      ∃ order now, Order.place id customer totalCents now = .ok order ∧
        tx.Files order (.placed id customer totalCents)
  | .cancel _ _ reason =>
      ∃ document order now cancelled, found = some document ∧
        OrderDesk.ofDocument document = .ok order ∧ order.cancel reason now = .ok cancelled ∧
        tx.Files cancelled (.cancelled order.id reason)
  | .tick _ => False

/-- How far a command has come: the document that it has found, and whether it has committed. -/
structure Phase where
  found : Option Document
  committed : Bool

def Phase.start : Phase := ⟨none, false⟩

def Phase.next (phase : Phase) : (call : Call κ) → call.Answer → Phase
  | .documentIn _ _ _, Except.ok found => { phase with found := found }
  | .commit _, Except.ok _ => { phase with committed := true }
  | _, _ => phase

def allows (task : OrderTask κ) (phase : Phase) : Call κ → Prop
  | .documentIn tx collection key => ∃ id, task.orderId? = some id ∧ tx = Transaction.empty ∧
      collection = OrderDesk.collection ∧ key = id.text
  | .commit tx => task.Files phase.found tx
  | .swap _ => task.orderId? = none
  | .publish _ _ => task.orderId? = none
  | .handle _ => task.orderId? = none
  | _ => True

def protocol (task : OrderTask κ) : Protocol κ Phase :=
  ⟨task.allows, Phase.next⟩

variable {task : OrderTask κ} {phase : Phase}

theorem protocol_staging (task : OrderTask κ) (phase : Phase) : task.protocol.Staging phase := by
  intro call hcall
  cases call with
  | stage tx draft => exact ⟨trivial, fun _ => rfl⟩
  | mint => exact ⟨trivial, fun _ => rfl⟩
  | now => exact ⟨trivial, fun _ => rfl⟩
  | count sample => exact ⟨trivial, fun _ => rfl⟩
  | _ => cases hcall

/-- A command succeeds exactly when it has committed. -/
def Ends (outcome : Except DeskError Order) (phase : Phase) : Prop :=
  outcome.isOk = phase.committed

/-- A unit of work begins with nothing in its transaction. -/
theorem keeps_begin (ctx : Context) :
    Program.Keeps task.protocol
      (fun outcome after => after = phase ∧ ∀ unit, outcome = .ok unit →
        unit.tx = Transaction.empty)
      (UnitOfWork.begin ctx : Attempt κ MessagingError UnitOfWork) phase := by
  refine Program.Keeps.andThen (Program.Keeps.calling ⟨trivial, fun answer hplausible => ?_⟩)
  match answer with
  | .error error =>
      refine Program.Keeps.failed ⟨rfl, fun unit hunit => ?_⟩
      cases hunit
  | .ok tx =>
      refine Program.Keeps.succeeded ⟨rfl, fun unit hunit => ?_⟩
      cases hunit
      exact hplausible

/-- The order that is loaded is the one of the document that was found. -/
theorem keeps_load {id : OrderId} (hid : task.orderId? = some id) :
    Program.Keeps task.protocol
      (fun outcome after => after.committed = phase.committed ∧ ∀ order?, outcome = .ok order? →
        OrderDesk.ofDocument? after.found = .ok order?)
      (OrderDesk.load Transaction.empty id : Attempt κ DeskError (Option Order)) phase := by
  refine Program.Keeps.andThen (Program.Keeps.calling ⟨⟨id, hid, rfl, rfl, rfl⟩, fun answer _ => ?_⟩)
  match answer with
  | .error error =>
      refine Program.Keeps.failed ⟨rfl, fun order? horder => ?_⟩
      cases horder
  | .ok found => exact Program.Keeps.succeeded ⟨rfl, fun order? horder => horder⟩

/-- The document of an order is written in the transaction, and nothing else is. -/
theorem keeps_save (tx : Transaction) (order : Order) :
    Program.Keeps task.protocol
      (fun outcome after => after = phase ∧ ∀ written saved, outcome = .ok (written, saved) →
        ∃ now, written = { tx with documents := tx.documents ++ [⟨order.version,
          ⟨OrderDesk.collection, order.id.text, order.version + 1, order.toJson, now⟩⟩] })
      (OrderDesk.save tx order : Attempt κ DeskError (Transaction × Order)) phase := by
  refine Program.Keeps.andThen (Program.Keeps.calling ⟨trivial, fun answer hplausible => ?_⟩)
  match answer with
  | .error error =>
      refine Program.Keeps.failed ⟨rfl, fun written saved hsaved => ?_⟩
      cases hsaved
  | .ok (written, document) =>
      obtain ⟨⟨now, rfl⟩, rfl⟩ := hplausible
      refine Program.Keeps.succeeded ⟨rfl, fun written saved hsaved => ?_⟩
      cases hsaved
      exact ⟨now, rfl⟩

/-- A commit that is allowed and answered as done is the success of the command. -/
theorem keeps_commit {unit : UnitOfWork} (hfiles : task.Files phase.found unit.tx)
    (hphase : phase.committed = false) :
    Program.Keeps task.protocol (fun outcome after => outcome.isOk = after.committed)
      (unit.commit : Attempt κ MessagingError Nat) phase := by
  refine Program.Keeps.andThen (Program.Keeps.calling ⟨hfiles, fun answer _ => ?_⟩)
  match answer with
  | .error error => exact Program.Keeps.failed hphase.symm
  | .ok value => exact Program.Keeps.succeeded rfl

/-- Whatever goes wrong, nothing is committed; otherwise the order and the messages of its event
are, and the command succeeds. -/
theorem keeps_conclude {unit : UnitOfWork} (hunit : unit.tx = Transaction.empty) {order : Order}
    {event : OrderEvent} {raisedAt : Instant} {sequence : Nat}
    (hevents : order.events.pending = [⟨event, raisedAt, sequence⟩])
    (hphase : phase.committed = false)
    (hfiles : ∀ tx, tx.Files order event → task.Files phase.found tx) :
    Program.Keeps task.protocol Ends (OrderDesk.conclude unit order) phase := by
  have hfailed : ∀ error, Ends (.error error) phase := fun error => hphase.symm
  obtain ⟨all, hall, hnotices⟩ := OrderReaction.stages_all (protocol_staging task phase)
  refine Program.Keeps.andThen (Program.Keeps.calling ((UnitOfWork.keeps_dispatch
    (protocol_staging task phase) hall unit order.events.pending).mono fun outcome after h => ?_))
  obtain ⟨rfl, hgains⟩ := h
  match outcome with
  | .error error => exact Program.Keeps.failed (hfailed _)
  | .ok (count, next) =>
      have hrows := hgains count next rfl
      simp only [hevents, raiseOrder, List.mergeSort_singleton, List.flatMap_cons, List.flatMap_nil,
        List.append_nil, hnotices, hunit] at hrows
      obtain ⟨rows, hnext, hrows⟩ := hrows
      refine Program.Keeps.succeeded (Program.Keeps.andThen
        ((keeps_save next.tx _).mono fun outcome after h => ?_))
      obtain ⟨rfl, hsaved⟩ := h
      match outcome with
      | .error error => exact Program.Keeps.failed (hfailed _)
      | .ok (written, saved) =>
          obtain ⟨now, hwritten⟩ := hsaved written saved rfl
          rw [hnext] at hwritten
          have hcommit : task.Files after.found written :=
            hfiles written ⟨by rw [hwritten]; exact hrows, now, by rw [hwritten]; rfl⟩
          refine Program.Keeps.succeeded (Program.Keeps.andThen (Program.Keeps.calling
            ((keeps_commit hcommit hphase).mono fun outcome after h => ?_)))
          match outcome with
          | .error error => exact Program.Keeps.failed h
          | .ok value => exact Program.Keeps.succeeded h

/-- A command begins a unit of work and loads its order; nothing is committed by then. -/
theorem keeps_loaded {ctx : Context} {id : OrderId} (hid : task.orderId? = some id)
    {rest : UnitOfWork → Option Order → Attempt κ DeskError Order}
    (hrest : ∀ unit order? after, unit.tx = Transaction.empty → after.committed = false →
      OrderDesk.ofDocument? after.found = .ok order? →
      Program.Keeps task.protocol Ends (rest unit order?) after) :
    Program.Keeps task.protocol Ends
      (do
        let unit ← Attempt.calling .messaging (UnitOfWork.begin ctx).run
        let order? ← OrderDesk.load unit.tx id
        rest unit order? : Attempt κ DeskError Order)
      Phase.start := by
  refine Program.Keeps.andThen (Program.Keeps.calling
    ((keeps_begin ctx).mono fun outcome after h => ?_))
  obtain ⟨rfl, hunit⟩ := h
  match outcome with
  | .error error => exact Program.Keeps.failed rfl
  | .ok unit =>
      have htx := hunit unit rfl
      refine Program.Keeps.succeeded (Program.Keeps.andThen ?_)
      rw [htx]
      refine (keeps_load hid).mono fun outcome after ⟨hphase, hfound⟩ => ?_
      match outcome with
      | .error error => exact Program.Keeps.failed hphase.symm
      | .ok order? => exact Program.Keeps.succeeded (hrest unit order? after htx hphase (hfound _ rfl))

theorem keeps_place (ctx : Context) (id : OrderId) (customer : String) (totalCents : Int64) :
    Program.Keeps (.place ctx id customer totalCents : OrderTask κ).protocol Ends
      (OrderDesk.place ctx id customer totalCents) Phase.start := by
  refine keeps_loaded rfl fun unit order? after htx hphase _ => ?_
  cases order? with
  | some order => exact hphase.symm
  | none =>
      refine (protocol_staging _ after).now fun now => ?_
      cases hplace : Order.place id customer totalCents now with
      | error error => exact hphase.symm
      | ok order =>
          have hevents : order.events.pending = [⟨.placed id customer totalCents, now, 0⟩] := by
            rw [Order.eq_of_place hplace]
            rfl
          refine keeps_conclude htx hevents hphase fun tx hfiles => ?_
          exact ⟨order, now, hplace, hfiles⟩

theorem keeps_cancel (ctx : Context) (id : OrderId) (reason : String) :
    Program.Keeps (.cancel ctx id reason : OrderTask κ).protocol Ends
      (OrderDesk.cancel ctx id reason) Phase.start := by
  refine keeps_loaded rfl fun unit order? after htx hphase hfound => ?_
  cases order? with
  | none => exact hphase.symm
  | some order =>
      obtain ⟨document, hdocument, horder⟩ := OrderDesk.ofDocument?_eq_some hfound
      refine (protocol_staging _ after).now fun now => ?_
      cases hcancel : order.cancel reason now with
      | error error => exact hphase.symm
      | ok cancelled =>
          obtain ⟨sequence, hevents⟩ :=
            Order.raised_of_cancel (OrderDesk.events_ofDocument horder) hcancel
          refine keeps_conclude htx hevents hphase fun tx hfiles => ?_
          exact ⟨document, order, now, cancelled, hdocument, horder, hcancel, hfiles⟩

/-- A tick has no business in transactions. -/
theorem keeps_tick (shift : Shift κ) :
    Program.Keeps (OrderTask.tick shift).protocol (fun _ _ => True)
      (shift.publisher.tickAt shift.now) Phase.start := by
  refine (Publisher.keeps_tick shift).elsewhere (fun phase call hallows place => ?_) Phase.start
  cases call with
  | documentIn tx collection key => exact hallows.elim
  | commit tx => exact hallows.elim
  | swap change => rfl
  | publish routingKey envelope => rfl
  | handle command => rfl
  | _ => trivial

/-- How tasks end: a command succeeds exactly when it has committed. -/
def ends (_ : OrderTask κ) : Outcome → Phase → Prop
  | .order outcome, phase => outcome.isOk = phase.committed
  | .report _, _ => True

theorem keeps_program (task : OrderTask κ) :
    task.program.Keeps task.protocol task.ends Phase.start := by
  cases task with
  | place ctx id customer totalCents =>
      exact Program.Keeps.bind ((keeps_place ctx id customer totalCents).mono fun _ _ h => h)
  | cancel ctx id reason =>
      exact Program.Keeps.bind ((keeps_cancel ctx id reason).mono fun _ _ h => h)
  | tick shift => exact Program.Keeps.bind ((keeps_tick shift).mono fun _ _ h => h)

end OrderTask

end Courier
