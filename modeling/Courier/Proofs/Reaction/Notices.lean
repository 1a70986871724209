import Courier.Proofs.Interleaving.Transactions
import Courier.Reaction.Dispatcher
import Mathlib.Data.List.Forall2
/-
Notices.  Work in a transaction stages messages one after another; leaving their identities and their
times aside, what it stages is a list of notices.  The notices of a unit of work are those of its
reactions, event by event and reaction by reaction.
-/
namespace Courier

variable {κ σ α β ε : Type}

/-- What a message tells: how it travels, the name of its payload's type, and the payload. -/
structure Notice where
  delivery : Delivery
  dataType : String
  payload : Json
deriving DecidableEq

def Notice.of [Message α] (delivery : Delivery) (message : α) : Notice :=
  ⟨delivery, Message.typeName α, Message.toJson message⟩

def Draft.notice (draft : Draft) : Notice :=
  ⟨draft.delivery, draft.dataType, (draft.data.get? "message").getD .null⟩

def Row.notice (row : Row) : Notice :=
  row.draft.notice

def Transaction.Gains (tx : Transaction) (notices : List Notice) (after : Transaction) : Prop :=
  ∃ rows, after = { tx with rows := tx.rows ++ rows } ∧ rows.map Row.notice = notices

namespace Transaction.Gains

variable {tx middle after : Transaction} {first second : List Notice}

theorem nothing (tx : Transaction) : tx.Gains [] tx :=
  ⟨[], by rw [List.append_nil], rfl⟩

theorem trans (hfirst : tx.Gains first middle) (hsecond : middle.Gains second after) :
    tx.Gains (first ++ second) after := by
  obtain ⟨rows, rfl, rfl⟩ := hfirst
  obtain ⟨more, rfl, rfl⟩ := hsecond
  exact ⟨rows ++ more, by rw [List.append_assoc], List.map_append⟩

end Transaction.Gains

/-- The calls that staging a message takes. -/
def Call.stages : Call κ → Bool
  | .stage _ _ => true
  | .mint => true
  | .now => true
  | .count _ => true
  | _ => false

/-- Messages may be staged in a phase, and it lasts meanwhile. -/
def Protocol.Staging (protocol : Protocol κ σ) (phase : σ) : Prop :=
  ∀ call : Call κ, call.stages = true →
    protocol.allows phase call ∧ ∀ answer, protocol.next phase call answer = phase

theorem Protocol.Staging.ask {protocol : Protocol κ σ} {phase : σ} (h : protocol.Staging phase)
    {ends : α → σ → Prop} {call : Call κ} (hcall : call.stages = true)
    {next : call.Answer → Program κ α}
    (hnext : ∀ answer, call.Plausible answer → (next answer).Keeps protocol ends phase) :
    (Program.ask call next).Keeps protocol ends phase := by
  obtain ⟨hallows, hstay⟩ := h call hcall
  refine ⟨hallows, fun answer hplausible => ?_⟩
  rw [hstay answer]
  exact hnext answer hplausible

/-- The clock may be read as well. -/
theorem Protocol.Staging.now {protocol : Protocol κ σ} {phase : σ} (h : protocol.Staging phase)
    {δ : Type} {ends : Except δ β → σ → Prop} {f : Instant → Attempt κ δ β}
    (hf : ∀ now, Program.Keeps protocol ends (f now) phase) :
    Program.Keeps protocol ends ((liftM (Program.now κ) : Attempt κ δ Instant) >>= f :
      Attempt κ δ β) phase :=
  h.ask rfl fun now _ => hf now

/-- Work adds messages with these notices to its transaction, or it fails. -/
def Work.Stages (protocol : Protocol κ σ) (phase : σ) (notices : List Notice) (work : Work κ α) :
    Prop :=
  ∀ tx, (work.inside tx).Keeps protocol
    (fun result after => after = phase ∧ (result.1.isOk = true → tx.Gains notices result.2)) phase

namespace Work.Stages

variable {protocol : Protocol κ σ} {phase : σ} {notices first second : List Notice}

theorem pure (value : α) : Work.Stages protocol phase [] (Pure.pure value : Work κ α) :=
  fun tx => ⟨rfl, fun _ => .nothing tx⟩

theorem bind {work : Work κ α} {f : α → Work κ β} (hwork : work.Stages protocol phase first)
    (hrest : ∀ value, (f value).Stages protocol phase second) :
    Work.Stages protocol phase (first ++ second) (work >>= f) := by
  intro tx
  refine Program.Keeps.bind ((hwork tx).mono fun result after hresult => ?_)
  obtain ⟨rfl, hfirst⟩ := hresult
  obtain ⟨outcome, middle⟩ := result
  cases outcome with
  | ok value =>
      refine (hrest value middle).mono fun result after ⟨hphase, hsecond⟩ => ?_
      exact ⟨hphase, fun hok => (hfirst rfl).trans (hsecond hok)⟩
  | error error => exact ⟨rfl, nofun⟩

/-- What comes after work that stages nothing may depend on its value. -/
theorem lift {program : Program κ α} {f : α → Work κ β}
    (h : program.Keeps protocol
      (fun value after => after = phase ∧ (f value).Stages protocol phase notices) phase) :
    Work.Stages protocol phase notices ((liftM program : Work κ α) >>= f) := by
  intro tx
  refine Program.Keeps.working (h.mono fun value after hvalue => ?_)
  obtain ⟨rfl, hrest⟩ := hvalue
  exact hrest tx

end Work.Stages

section staging

variable {protocol : Protocol κ σ} {phase : σ} (hstaging : protocol.Staging phase)
include hstaging

namespace Staging

theorem stages_draft (draft : Draft) :
    (stageDraft draft : Work κ Row).Stages protocol phase [draft.notice] := by
  intro tx
  refine hstaging.ask rfl fun answer hplausible => ?_
  match answer with
  | .error error => exact ⟨rfl, nofun⟩
  | .ok (written, row) =>
      obtain ⟨⟨id, now, rfl⟩, rfl⟩ := hplausible
      exact ⟨rfl, fun _ => ⟨[Row.fresh id draft now], rfl, rfl⟩⟩

theorem stages_saveRaw {raw : RawEnvelope} {typeName : String} (h : raw.typeName? = some typeName)
    (delivery : Delivery) :
    (saveRaw raw delivery : Work κ Row).Stages protocol phase
      [⟨delivery, typeName, raw.message⟩] := by
  unfold saveRaw
  rw [h]
  refine (stages_draft hstaging (draftOf raw typeName delivery)).bind fun row => ?_
  exact .lift (hstaging.ask rfl fun _ _ => ⟨rfl, .pure row⟩)

end Staging

/-- Wrapping stages nothing, and names the type of the payload. -/
theorem Work.Stages.wrapped {typeName : String} {message : α} {ctx : Context}
    {notices : List Notice} {f : Envelope α → Work κ β}
    (h : ∀ envelope : Envelope α, envelope.message = message →
      envelope.typeName? = some typeName → (f envelope).Stages protocol phase notices) :
    Work.Stages protocol phase notices
      ((liftM (Envelope.wrapAs typeName message ctx : Program κ (Envelope α)) :
        Work κ (Envelope α)) >>= f) := by
  refine .lift (hstaging.ask rfl fun id _ => hstaging.ask rfl fun now _ => ⟨rfl, ?_⟩)
  exact h _ rfl (Metadata.typeName?_fresh ⟨id⟩ now typeName ctx)

namespace Staging

variable [Message α]

theorem stages_save {envelope : Envelope α} (h : envelope.typeName? = some (Message.typeName α))
    (delivery : Delivery) :
    (save envelope delivery : Work κ Row).Stages protocol phase
      [Notice.of delivery envelope.message] := by
  have htype : envelope.toRaw.typeName? = some (Message.typeName α) := h
  exact stages_saveRaw hstaging htype delivery

theorem stages_event (ctx : Context) (event : α) :
    (stageEvent ctx event : Work κ Row).Stages protocol phase [Notice.of .outbox event] := by
  refine Work.Stages.wrapped hstaging fun envelope hmessage htype => ?_
  rw [← hmessage]
  exact stages_save hstaging htype .outbox

theorem stages_schedule (ctx : Context) (commands : List α) :
    (schedule ctx commands : Work κ (List Row)).Stages protocol phase
      (commands.map (Notice.of .internal)) := by
  induction commands with
  | nil => exact .pure []
  | cons command rest ih =>
      refine Work.Stages.wrapped hstaging fun envelope hmessage htype => ?_
      rw [List.map_cons, ← hmessage]
      refine (stages_save hstaging htype .internal).bind fun row => ?_
      rw [← List.append_nil (rest.map _)]
      exact ih.bind fun rows => .pure (row :: rows)

end Staging

end staging

/-- The messages that a reaction stages when it is run on an event. -/
def Reaction.Stages (protocol : Protocol κ σ) (phase : σ) (reaction : Reaction κ ε)
    (notices : ε → List Notice) : Prop :=
  ∀ ctx event, (reaction.run ctx event).Stages protocol phase (notices event.message)

namespace Reaction

variable {protocol : Protocol κ σ} {phase : σ} {reactions : List (Reaction κ ε)}
  {all : List (ε → List Notice)}

theorem Stages.react {reaction : Reaction κ ε} {notices : ε → List Notice}
    (h : reaction.Stages protocol phase notices) (eventType : String) (ctx : Context)
    (event : Envelope ε) :
    (reaction.react eventType ctx event).Stages protocol phase (notices event.message) := by
  intro tx
  refine Program.Keeps.bind ((h ctx event tx).mono fun result after hresult => ?_)
  obtain ⟨outcome, middle⟩ := result
  cases outcome with
  | ok value => exact hresult
  | error error => exact ⟨hresult.1, nofun⟩

/-- The reactions to an event stage their messages one after another. -/
theorem stages_reactAll (h : List.Forall₂ (Reaction.Stages protocol phase) reactions all)
    (eventType : String) (ctx : Context) (event : Envelope ε) :
    (reactAll eventType ctx event reactions).Stages protocol phase
      (all.flatMap fun notices => notices event.message) := by
  induction h with
  | nil => exact .pure ()
  | cons hreaction _ ih => exact (hreaction.react eventType ctx event).bind fun _ => ih

variable [DomainEvent ε] (hstaging : protocol.Staging phase)
include hstaging

theorem stages_dispatchInOrder (h : List.Forall₂ (Reaction.Stages protocol phase) reactions all)
    (ctx : Context) (events : List (RaisedEvent ε)) :
    (dispatchInOrder reactions ctx events).Stages protocol phase
      (events.flatMap fun raised => all.flatMap fun notices => notices raised.event) := by
  induction events with
  | nil => exact .pure ()
  | cons raised rest ih =>
      refine Work.Stages.wrapped hstaging fun envelope hmessage _ => ?_
      rw [List.flatMap_cons, ← hmessage]
      exact (stages_reactAll h _ _ envelope).bind fun _ => ih

/-- Raised events are dispatched in the order in which they were raised. -/
theorem stages_dispatch (h : List.Forall₂ (Reaction.Stages protocol phase) reactions all)
    (ctx : Context) (events : List (RaisedEvent ε)) :
    (dispatch reactions ctx events).Stages protocol phase
      ((raiseOrder events).flatMap fun raised => all.flatMap fun notices => notices raised.event) := by
  unfold dispatch
  rw [← List.append_nil (List.flatMap _ _)]
  exact (stages_dispatchInOrder hstaging h ctx (raiseOrder events)).bind fun _ =>
    .pure events.length

end Reaction

/-- A unit of work goes on with the messages that its events have staged. -/
theorem UnitOfWork.keeps_dispatch [DomainEvent ε] {protocol : Protocol κ σ} {phase : σ}
    {reactions : List (Reaction κ ε)} {all : List (ε → List Notice)}
    (hstaging : protocol.Staging phase)
    (h : List.Forall₂ (Reaction.Stages protocol phase) reactions all) (unit : UnitOfWork)
    (events : List (RaisedEvent ε)) :
    Program.Keeps protocol (fun outcome after => after = phase ∧
        ∀ count next, outcome = .ok (count, next) → unit.tx.Gains
          ((raiseOrder events).flatMap fun raised => all.flatMap fun notices => notices raised.event)
          next.tx)
      (unit.dispatch reactions events) phase := by
  have hwork := Reaction.stages_dispatch hstaging h unit.ctx events unit.tx
  refine Program.Keeps.bind (Program.Keeps.bind (Program.Keeps.bind
    (hwork.mono fun result after hresult => ?_)))
  obtain ⟨rfl, hgains⟩ := hresult
  obtain ⟨outcome, tx⟩ := result
  cases outcome with
  | error error => exact ⟨rfl, nofun⟩
  | ok dispatched =>
      refine ⟨rfl, fun count next hnext => ?_⟩
      cases hnext
      exact hgains rfl

end Courier
