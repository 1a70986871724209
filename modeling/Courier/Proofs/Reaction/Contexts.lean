import Courier.Order.Desk
import Courier.Proofs.Envelope.Wire
import Courier.Proofs.Interleaving.Protocol
import Courier.Proofs.Publishing.Runs
import Courier.Reaction.Dispatcher
/-
Contexts of reactions.  A reaction is handed the transaction and the context of its event.  Whatever it
does with the one, what it stages under the other has the correlation and the cause that the context
names, in the row's columns as well as in the envelope that the row stores.
-/
namespace Courier

variable {κ σ α β ε : Type}

theorem Program.Ends.of_run {answer : (call : Call κ) → σ → call.Answer × σ}
    {program : Program κ α} {state after : σ} {value : α} {goal : α → σ → Prop}
    (h : program.run answer state = (value, after)) (hgoal : goal value after) :
    program.Ends answer state goal := by
  unfold Program.Ends
  rw [h]
  exact hgoal

/-- The row, and the envelope in it, were made under a context. -/
structure Row.IsUnder (row : Row) (ctx : Context) : Prop where
  correlationId : row.correlationId = ctx.correlationId
  causationId : row.causationId = ctx.causationId
  envelope : ∃ raw : RawEnvelope, RawEnvelope.ofJson row.data = .ok raw ∧
    raw.metadata.messageId = row.messageId ∧ raw.metadata.correlationId = ctx.correlationId ∧
      raw.metadata.causationId = ctx.causationId

/-- Staging an envelope that was made under a context leaves a row that was. -/
theorem Row.isUnder_fresh {raw : RawEnvelope} {ctx : Context}
    (hcorrelation : raw.metadata.correlationId = ctx.correlationId)
    (hcausation : raw.metadata.causationId = ctx.causationId) (typeName : String)
    (delivery : Delivery) (id : RowId) (now : Instant) :
    (Row.fresh id (Staging.draftOf raw typeName delivery) now).IsUnder ctx where
  correlationId := hcorrelation
  causationId := hcausation
  envelope := ⟨raw, RawEnvelope.ofJson_toJson raw, rfl, hcorrelation, hcausation⟩

namespace Work

/-- Work, and then what its outcome leads to, a failure included. -/
def andThen (work : Work κ α) (next : Except MessagingError α → Work κ β) : Work κ β :=
  Work.of fun tx => do
    let (outcome, tx) ← work.inside tx
    (next outcome).inside tx

/-- A single call that leaves the transaction alone. -/
def aside (call : Call κ) : Work κ call.Answer :=
  Work.of fun tx => do
    let answer ← Program.perform call
    return (.ok answer, tx)

def document (collection key : String) : Work κ (Except StoreError (Option Document)) :=
  Work.of fun tx => do
    let found ← Program.perform (.documentIn tx collection key)
    return (.ok found, tx)

def saveDocument (collection key : String) (body : Json) (expected : Int) :
    Work κ (Except StoreError Document) :=
  Work.of fun tx => do
    match ← Program.perform (.saveDocument tx collection key body expected) with
    | .ok (tx, document) => return (.ok (.ok document), tx)
    | .error error => return (.ok (.error error), tx)

/-- Work that stages messages under one context and in no other way.  It may read and write documents
and make any call outside the transaction, and go on as it likes after every answer. -/
inductive StagesUnder (ctx : Context) : {α : Type} → Work κ α → Prop where
  | done {α : Type} (outcome : Except MessagingError α) :
      StagesUnder ctx (ExceptT.mk (Pure.pure outcome))
  | andThen {α β : Type} {work : Work κ α} {next : Except MessagingError α → Work κ β}
      (hwork : StagesUnder ctx work) (hnext : ∀ outcome, StagesUnder ctx (next outcome)) :
      StagesUnder ctx (work.andThen next)
  | event {α : Type} [Message α] (message : α) : StagesUnder ctx (Staging.stageEvent ctx message)
  | commands {α : Type} [Message α] (messages : List α) :
      StagesUnder ctx (Staging.schedule ctx messages)
  | aside (call : Call κ) (houtside : call.transaction? = none) : StagesUnder ctx (Work.aside call)
  | document (collection key : String) : StagesUnder ctx (Work.document collection key)
  | saveDocument (collection key : String) (body : Json) (expected : Int) :
      StagesUnder ctx (Work.saveDocument collection key body expected)

/-- What comes after a success, while a failure ends the whole. -/
def onSuccess (f : α → Work κ β) : Except MessagingError α → Work κ β
  | .ok value => f value
  | .error error => ExceptT.mk (Pure.pure (.error error))

theorem bind_eq_andThen (work : Work κ α) (f : α → Work κ β) :
    work >>= f = work.andThen (onSuccess f) := by
  have hnext : ExceptT.bindCont f = onSuccess f := by
    funext outcome
    cases outcome <;> rfl
  rw [← hnext]
  rfl

theorem StagesUnder.pure (ctx : Context) (value : α) :
    StagesUnder ctx (Pure.pure value : Work κ α) :=
  .done (.ok value)

theorem StagesUnder.bind {ctx : Context} {work : Work κ α} {f : α → Work κ β}
    (hwork : work.StagesUnder ctx) (hrest : ∀ value, (f value).StagesUnder ctx) :
    StagesUnder ctx (work >>= f) := by
  rw [bind_eq_andThen]
  refine hwork.andThen fun outcome => ?_
  cases outcome with
  | ok value => exact hrest value
  | error error => exact .done (.error error)

theorem ends_andThen {answer : (call : Call κ) → σ → call.Answer × σ} {work : Work κ α}
    {next : Except MessagingError α → Work κ β} {tx : Transaction} {state : σ}
    {goal : Except MessagingError β × Transaction → σ → Prop}
    (h : (work.inside tx).Ends answer state fun result after =>
      ((next result.1).inside result.2).Ends answer after goal) :
    ((work.andThen next).inside tx).Ends answer state goal :=
  Program.Ends.bind h

theorem ends_bind {answer : (call : Call κ) → σ → call.Answer × σ} {work : Work κ α}
    {f : α → Work κ β} {tx : Transaction} {state : σ}
    {goal : Except MessagingError β × Transaction → σ → Prop}
    (h : (work.inside tx).Ends answer state fun result after =>
      ((onSuccess f result.1).inside result.2).Ends answer after goal) :
    ((work >>= f).inside tx).Ends answer state goal := by
  rw [bind_eq_andThen]
  exact ends_andThen h

/-- What comes after a program that cannot fail may depend on its value. -/
theorem ends_lift {answer : (call : Call κ) → σ → call.Answer × σ} {program : Program κ α}
    {f : α → Work κ β} {tx : Transaction} {state : σ}
    {goal : Except MessagingError β × Transaction → σ → Prop}
    (h : program.Ends answer state fun value after => ((f value).inside tx).Ends answer after goal) :
    (((liftM program : Work κ α) >>= f).inside tx).Ends answer state goal :=
  Program.Ends.bind (Program.Ends.bind (Program.Ends.bind (h.mono fun _ _ hrest => hrest)))

/-- Work that adds such rows to its transaction and takes none away. -/
def Adds (answer : (call : Call κ) → σ → call.Answer × σ) (holds : Row → Prop) (work : Work κ α) :
    Prop :=
  ∀ tx state, (work.inside tx).Ends answer state fun result _ =>
    ∃ rows, result.2.rows = tx.rows ++ rows ∧ ∀ row ∈ rows, holds row

variable {answer : (call : Call κ) → σ → call.Answer × σ} {holds : Row → Prop}

namespace Adds

theorem nothing {tx after : Transaction} (h : after.rows = tx.rows) :
    ∃ rows, after.rows = tx.rows ++ rows ∧ ∀ row ∈ rows, holds row :=
  ⟨[], by rw [h, List.append_nil], List.forall_mem_nil _⟩

theorem done (outcome : Except MessagingError α) :
    Adds answer holds (ExceptT.mk (Pure.pure outcome) : Work κ α) :=
  fun _ _ => nothing rfl

theorem andThen {work : Work κ α} {next : Except MessagingError α → Work κ β}
    (hwork : work.Adds answer holds) (hnext : ∀ outcome, (next outcome).Adds answer holds) :
    (work.andThen next).Adds answer holds := by
  intro tx state
  refine ends_andThen ((hwork tx state).mono fun result after hresult => ?_)
  obtain ⟨outcome, middle⟩ := result
  obtain ⟨first, hfirst, hall⟩ := hresult
  refine (hnext outcome middle after).mono fun result _ ⟨second, hsecond, hmore⟩ => ?_
  refine ⟨first ++ second, ?_, fun row hrow => ?_⟩
  · rw [hsecond, hfirst, List.append_assoc]
  · exact (List.mem_append.1 hrow).elim (hall row) (hmore row)

theorem bind {work : Work κ α} {f : α → Work κ β} (hwork : work.Adds answer holds)
    (hrest : ∀ value, (f value).Adds answer holds) : Adds answer holds (work >>= f) := by
  rw [bind_eq_andThen]
  refine hwork.andThen fun outcome => ?_
  cases outcome with
  | ok value => exact hrest value
  | error error => exact done (.error error)

theorem aside (call : Call κ) : (Work.aside call).Adds answer holds :=
  fun _ _ => nothing rfl

theorem document (collection key : String) :
    (Work.document collection key : Work κ _).Adds answer holds :=
  fun _ _ => nothing rfl

theorem wrapped [Message α] {ctx : Context} {message : α} {f : Envelope α → Work κ β}
    (h : ∀ id now, (f ⟨message, Metadata.fresh id now (Message.typeName α) ctx⟩).Adds answer holds) :
    Adds answer holds
      ((liftM (Envelope.wrap message ctx : Program κ (Envelope α)) : Work κ (Envelope α)) >>= f) :=
  (aside .mint).bind fun id => (aside .now).bind fun now => h ⟨id⟩ now

end Adds

variable (hanswers : ∀ (call : Call κ) (state : σ), call.Plausible (answer call state).1)
include hanswers

theorem adds_saveDocument (collection key : String) (body : Json) (expected : Int) :
    (Work.saveDocument collection key body expected : Work κ _).Adds answer holds := by
  intro tx state
  refine Program.Ends.bind ?_
  have hsaved := hanswers (.saveDocument tx collection key body expected) state
  unfold Program.Ends Program.perform Program.run
  generalize answer (.saveDocument tx collection key body expected) state = response at hsaved ⊢
  obtain ⟨reply, after⟩ := response
  cases reply with
  | error error => exact Adds.nothing rfl
  | ok result =>
      obtain ⟨written, saved⟩ := result
      obtain ⟨_, rfl⟩ := hsaved
      exact Adds.nothing rfl

theorem adds_stageDraft {draft : Draft} (h : ∀ id now, holds (Row.fresh id draft now)) :
    (Staging.stageDraft draft : Work κ Row).Adds answer holds := by
  intro tx state
  refine Program.Ends.bind ?_
  have hstaged := hanswers (.stage tx draft) state
  unfold Program.Ends Program.perform Program.run
  generalize answer (.stage tx draft) state = response at hstaged ⊢
  obtain ⟨reply, after⟩ := response
  cases reply with
  | error error => exact Adds.nothing rfl
  | ok result =>
      obtain ⟨written, row⟩ := result
      obtain ⟨⟨id, now, rfl⟩, rfl⟩ := hstaged
      exact ⟨[Row.fresh id draft now], rfl, List.forall_mem_singleton.2 (h id now)⟩

theorem adds_saveRaw {raw : RawEnvelope} {delivery : Delivery}
    (h : ∀ typeName id now, holds (Row.fresh id (Staging.draftOf raw typeName delivery) now)) :
    (Staging.saveRaw raw delivery : Work κ Row).Adds answer holds := by
  unfold Staging.saveRaw
  cases raw.typeName? with
  | none => exact Adds.done _
  | some typeName =>
      refine (adds_stageDraft hanswers (h typeName)).bind fun row => ?_
      exact (Adds.aside (.count (.staged delivery))).bind fun _ => Adds.done (.ok row)

theorem adds_save [Message α] {ctx : Context} {envelope : Envelope α}
    (hcorrelation : envelope.metadata.correlationId = ctx.correlationId)
    (hcausation : envelope.metadata.causationId = ctx.causationId) (delivery : Delivery) :
    (Staging.save envelope delivery : Work κ Row).Adds answer (·.IsUnder ctx) :=
  adds_saveRaw hanswers fun typeName =>
    @Row.isUnder_fresh envelope.toRaw ctx hcorrelation hcausation typeName delivery

theorem adds_event [Message α] (ctx : Context) (message : α) :
    (Staging.stageEvent ctx message : Work κ Row).Adds answer (·.IsUnder ctx) :=
  Adds.wrapped fun _ _ => adds_save hanswers rfl rfl .outbox

theorem adds_schedule [Message α] (ctx : Context) (messages : List α) :
    (Staging.schedule ctx messages : Work κ (List Row)).Adds answer (·.IsUnder ctx) := by
  induction messages with
  | nil => exact Adds.done (.ok [])
  | cons message rest ih =>
      refine Adds.wrapped fun id now => ?_
      refine (adds_save hanswers rfl rfl .internal).bind fun row => ?_
      exact ih.bind fun rows => Adds.done (.ok (row :: rows))

/-- What stages under a context adds rows that were made under it. -/
theorem StagesUnder.adds {ctx : Context} {work : Work κ α} (h : work.StagesUnder ctx) :
    work.Adds answer (·.IsUnder ctx) := by
  induction h with
  | done outcome => exact Adds.done outcome
  | andThen _ _ hwork hnext => exact hwork.andThen hnext
  | event message => exact adds_event hanswers ctx message
  | commands messages => exact adds_schedule hanswers ctx messages
  | aside call _ => exact Adds.aside call
  | document collection key => exact Adds.document collection key
  | saveDocument collection key body expected =>
      exact adds_saveDocument hanswers collection key body expected

end Work

/-- A reaction that stages in the context that it is handed, and in no other way. -/
def Reaction.StagesInContext (reaction : Reaction κ ε) : Prop :=
  ∀ ctx event, (reaction.run ctx event).StagesUnder ctx

namespace OrderReaction

theorem publishPlaced_inContext : (publishPlaced : Reaction κ OrderEvent).StagesInContext := by
  rintro ctx ⟨event, metadata⟩
  cases event with
  | placed id customer totalCents =>
      exact Work.StagesUnder.bind (.event (OrderPlaced.mk id customer totalCents)) fun _ => .pure ctx ()
  | cancelled id reason => exact .pure ctx ()

theorem publishCancelled_inContext : (publishCancelled : Reaction κ OrderEvent).StagesInContext := by
  rintro ctx ⟨event, metadata⟩
  cases event with
  | placed id customer totalCents => exact .pure ctx ()
  | cancelled id reason =>
      exact Work.StagesUnder.bind (.event (OrderCancelled.mk id reason)) fun _ => .pure ctx ()

theorem scheduleSummary_inContext : (scheduleSummary : Reaction κ OrderEvent).StagesInContext :=
  fun ctx event =>
    Work.StagesUnder.bind (.commands [summaryUpdate event.message]) fun _ => .pure ctx ()

theorem all_inContext : ∀ reaction ∈ (all : List (Reaction κ OrderEvent)), reaction.StagesInContext :=
  List.forall_mem_cons.2 ⟨publishPlaced_inContext, List.forall_mem_cons.2
    ⟨publishCancelled_inContext, List.forall_mem_singleton.2 scheduleSummary_inContext⟩⟩

end OrderReaction

end Courier
