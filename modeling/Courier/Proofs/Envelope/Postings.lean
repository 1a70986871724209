import Courier.Custody.Staging
import Courier.Order.Registration
import Courier.Proofs.Envelope.Typed
import Courier.Proofs.Interleaving.Versions
import Courier.Proofs.Time.Order
import Courier.Publishing.Router
/-
Postings: the ways in which an envelope comes to be stored.  A row that was staged for an envelope
carries it from then on, in every version that is found or handed out, and every router that does not
take the name of the payload's type for another type reads it back.
-/
namespace Courier

variable {κ τ ρ α β : Type}

section carrying

variable [Message α]

/-- The columns of a row tell what its envelope tells, and its data is read back as the envelope. -/
structure Row.Carries (row : Row) (envelope : Envelope α) : Prop where
  messageId : row.messageId = envelope.metadata.messageId
  correlationId : row.correlationId = envelope.metadata.correlationId
  causationId : row.causationId = envelope.metadata.causationId
  dataType : envelope.typeName? = some row.dataType
  data : RawEnvelope.ofJson row.data = .ok envelope.toRaw
  typed : Envelope.unwrap α envelope.toRaw = .ok envelope

def Envelope.fresh (message : α) (id : MessageId) (now : Instant) (ctx : Context) : Envelope α :=
  ⟨message, Metadata.fresh id now (Message.typeName α) ctx⟩

theorem Envelope.fresh_namesItsType (message : α) (id : MessageId) (now : Instant) (ctx : Context) :
    (Envelope.fresh message id now ctx).NamesItsType :=
  Metadata.typeName?_fresh id now (Message.typeName α) ctx

variable {row version : Row} {envelope : Envelope α}

theorem Row.Carries.of_same (h : row.Carries envelope) (hsame : row.SameMessage version) :
    version.Carries envelope where
  messageId := hsame.messageId.trans h.messageId
  correlationId := hsame.correlationId.trans h.correlationId
  causationId := hsame.causationId.trans h.causationId
  dataType := by rw [hsame.dataType]; exact h.dataType
  data := by rw [hsame.data]; exact h.data
  typed := h.typed

/-- Staging writes an envelope into its row. -/
theorem Row.carries_fresh [Message.Lossless α] (h : envelope.NamesItsType) (delivery : Delivery)
    (id : RowId) (now : Instant) :
    (Row.fresh id (Staging.draftOf envelope.toRaw (Message.typeName α) delivery) now).Carries
      envelope where
  messageId := rfl
  correlationId := rfl
  causationId := rfl
  dataType := h
  data := RawEnvelope.ofJson_toJson envelope.toRaw
  typed := Envelope.unwrap_toRaw h

namespace Registry

variable {registry : Registry κ}

/-- A registry takes the name of a type for that type, or it does not know the name. -/
def Agrees (registry : Registry κ) (α : Type) [Message α] : Prop :=
  ∀ registration, registry.entries.get? (Message.typeName α) = some registration →
    registration.decode = decodeAs α

theorem agrees_empty (α : Type) [Message α] : (empty : Registry κ).Agrees α := by
  intro registration hfound
  cases hfound

theorem Agrees.insert (h : registry.Agrees α) {name : String} {registration : Registration κ}
    (hname : name = Message.typeName α → registration.decode = decodeAs α) :
    Agrees ⟨registry.entries.insert name registration⟩ α := by
  intro found hfound
  by_cases hsame : name = Message.typeName α
  · subst hsame
    rw [Table.get?_insert_self] at hfound
    obtain rfl := Option.some.inj hfound
    exact hname rfl
  · rw [Table.get?_insert_of_ne _ (Ne.symm hsame)] at hfound
    exact h found hfound

theorem Agrees.register (h : registry.Agrees α) [Message β]
    (hname : Message.typeName β = Message.typeName α → decodeAs β = decodeAs α) :
    (registry.register β).Agrees α := by
  unfold Registry.register
  dsimp only
  split
  · exact h
  · exact h.insert hname

/-- Where the types of orders are registered, none of their names stands for another type. -/
theorem agrees_registerOrders (command : SummaryUpdate → κ) (hplaced : registry.Agrees OrderPlaced)
    (hcancelled : registry.Agrees OrderCancelled) (hupdate : registry.Agrees SummaryUpdate) :
    (registry.registerOrders command).Agrees OrderPlaced ∧
      (registry.registerOrders command).Agrees OrderCancelled ∧
      (registry.registerOrders command).Agrees SummaryUpdate := by
  refine ⟨?_, ?_, ?_⟩
  · have hfirst := hplaced.register (β := OrderPlaced) fun _ => rfl
    have hsecond := hfirst.register (β := OrderCancelled) fun hname => absurd hname (by decide)
    exact hsecond.insert fun hname => absurd hname (by decide)
  · have hfirst := hcancelled.register (β := OrderPlaced) fun hname => absurd hname (by decide)
    have hsecond := hfirst.register (β := OrderCancelled) fun _ => rfl
    exact hsecond.insert fun hname => absurd hname (by decide)
  · have hfirst := hupdate.register (β := OrderPlaced) fun hname => absurd hname (by decide)
    have hsecond := hfirst.register (β := OrderCancelled) fun hname => absurd hname (by decide)
    exact hsecond.insert fun _ => rfl

end Registry

theorem Envelope.typeName_of_unwrap {raw : RawEnvelope} {name : String}
    (h : unwrap α raw = .ok envelope) (hname : raw.typeName? = some name) :
    name = Message.typeName α := by
  by_contra hother
  simp only [unwrap, hname, Option.getD_some, hother, ↓reduceIte, reduceCtorEq] at h

/-- A router that agrees on the payload's type reads the envelope of a row back. -/
theorem Row.Carries.decode (h : row.Carries envelope) {router : Router κ}
    (hagrees : router.registry.Agrees α) : router.decode row = .ok envelope.toRaw := by
  have htype : envelope.toRaw.typeName? = some row.dataType := h.dataType
  have hname : row.dataType = Message.typeName α := Envelope.typeName_of_unwrap h.typed htype
  have hpayload : Registry.decodeAs α envelope.toRaw = .ok () := by
    unfold Registry.decodeAs
    rw [h.typed]
    rfl
  have hregistered : router.registry.isRegistered row.dataType = true →
      router.registry.decode envelope.toRaw = .ok () := by
    intro hknown
    obtain ⟨registration, hfound⟩ := Option.isSome_iff_exists.1 hknown
    have hlookup : router.registry.lookup envelope.toRaw = .ok registration := by
      simp only [Registry.lookup, htype, Option.getD_some, hfound]
    unfold Registry.decode
    rw [hlookup]
    change registration.decode envelope.toRaw = .ok ()
    rw [hagrees registration (hname ▸ hfound), hpayload]
  unfold Router.decode
  rw [h.data]
  change (if envelope.toRaw.typeName? = some row.dataType then _ else _) = _
  rw [if_pos htype]
  cases hknown : router.registry.isRegistered row.dataType with
  | false => rfl
  | true =>
      simp only [↓reduceIte]
      rw [hregistered hknown]
      rfl

end carrying

/-- A protocol that cares only for the messages that are staged. -/
def drafting (drafts : Draft → Prop) : Protocol κ Unit where
  allows _ call := ∀ draft, call.draft? = some draft → drafts draft
  next _ _ _ := ()

theorem Program.keeps_drafting {drafts : Draft → Prop} (h : ∀ draft, drafts draft)
    (program : Program κ α) : program.Keeps (drafting drafts) (fun _ _ => True) () := by
  induction program with
  | done value => trivial
  | ask call next ih => exact ⟨fun draft _ => h draft, fun answer _ => ih answer⟩

def Work.Drafts (drafts : Draft → Prop) (work : Work κ α) : Prop :=
  ∀ tx, (work.inside tx).Keeps (drafting drafts) (fun _ _ => True) ()

namespace Work.Drafts

variable {drafts : Draft → Prop}

theorem pure (value : α) : Work.Drafts drafts (Pure.pure value : Work κ α) :=
  fun _ => trivial

theorem bind {work : Work κ α} {f : α → Work κ β} (hwork : work.Drafts drafts)
    (hrest : ∀ value, (f value).Drafts drafts) : Work.Drafts drafts (work >>= f) := by
  intro tx
  refine Program.Keeps.bind ((hwork tx).mono fun result _ _ => ?_)
  obtain ⟨outcome, middle⟩ := result
  cases outcome with
  | ok value => exact hrest value middle
  | error error => trivial

theorem lift {program : Program κ α} {f : α → Work κ β}
    (h : program.Keeps (drafting drafts) (fun value _ => (f value).Drafts drafts) ()) :
    Work.Drafts drafts ((liftM program : Work κ α) >>= f) :=
  fun tx => Program.Keeps.working (h.mono fun _ _ hrest => hrest tx)

theorem wrapped [Message α] {message : α} {ctx : Context} {f : Envelope α → Work κ β}
    (h : ∀ id now, (f (.fresh message id now ctx)).Drafts drafts) :
    Work.Drafts drafts
      ((liftM (Envelope.wrap message ctx : Program κ (Envelope α)) : Work κ (Envelope α)) >>= f) :=
  lift ⟨nofun, fun id _ => ⟨nofun, fun now _ => h ⟨id⟩ now⟩⟩

end Work.Drafts

namespace Staging

variable {drafts : Draft → Prop}

theorem drafts_stageDraft {draft : Draft} (h : drafts draft) :
    (stageDraft draft : Work κ Row).Drafts drafts := by
  intro tx
  refine ⟨fun staged hstaged => Option.some.inj hstaged ▸ h, fun answer _ => ?_⟩
  cases answer with
  | ok written => trivial
  | error error => trivial

variable [Message α]

theorem drafts_save {envelope : Envelope α} (hnames : envelope.NamesItsType) {delivery : Delivery}
    (h : drafts (draftOf envelope.toRaw (Message.typeName α) delivery)) :
    (save envelope delivery : Work κ Row).Drafts drafts := by
  have htype : envelope.toRaw.typeName? = some (Message.typeName α) := hnames
  unfold save saveRaw
  rw [htype]
  exact (drafts_stageDraft h).bind fun row => .lift ⟨nofun, fun _ _ => .pure row⟩

theorem drafts_event {ctx : Context} {event : α}
    (h : ∀ id now, drafts
      (draftOf (Envelope.fresh event id now ctx).toRaw (Message.typeName α) .outbox)) :
    (stageEvent ctx event : Work κ Row).Drafts drafts :=
  .wrapped fun id now => drafts_save (Envelope.fresh_namesItsType event id now ctx) (h id now)

theorem drafts_schedule {ctx : Context} {commands : List α}
    (h : ∀ command ∈ commands, ∀ id now, drafts
      (draftOf (Envelope.fresh command id now ctx).toRaw (Message.typeName α) .internal)) :
    (schedule ctx commands : Work κ (List Row)).Drafts drafts := by
  induction commands with
  | nil => exact .pure []
  | cons command rest ih =>
      obtain ⟨hcommand, hrest⟩ := List.forall_mem_cons.1 h
      refine .wrapped fun id now => ?_
      have hnames := Envelope.fresh_namesItsType command id now ctx
      refine (drafts_save hnames (hcommand id now)).bind fun row => ?_
      exact (ih hrest).bind fun rows => .pure (row :: rows)

end Staging

/-- What is done in a transaction, its outcome left aside. -/
def Work.alone (work : Work κ α) (tx : Transaction) : Program κ Unit :=
  (work.inside tx).bind fun _ => .done ()

theorem Work.Drafts.alone {drafts : Draft → Prop} {work : Work κ α} (h : work.Drafts drafts)
    (tx : Transaction) : (work.alone tx).Keeps (drafting drafts) (fun _ _ => True) () :=
  Program.Keeps.bind ((h tx).mono fun _ _ _ => trivial)

/-- A way of staging payloads of one type, or anything else. -/
inductive Posting (κ α : Type) where
  | save (tx : Transaction) (envelope : Envelope α) (delivery : Delivery)
  | event (tx : Transaction) (ctx : Context) (message : α)
  | commands (tx : Transaction) (ctx : Context) (messages : List α)
  | other (program : Program κ Unit)

namespace Posting

variable [Message α]

def program : Posting κ α → Program κ Unit
  | .save tx envelope delivery => (Staging.save envelope delivery : Work κ Row).alone tx
  | .event tx ctx message => (Staging.stageEvent ctx message : Work κ Row).alone tx
  | .commands tx ctx messages => (Staging.schedule ctx messages : Work κ (List Row)).alone tx
  | .other program => program

inductive Stages : Posting κ α → Envelope α → Delivery → Prop where
  | saved (tx : Transaction) {envelope : Envelope α} (delivery : Delivery)
      (hnames : envelope.NamesItsType) : Stages (.save tx envelope delivery) envelope delivery
  | event (tx : Transaction) (ctx : Context) (message : α) (id : MessageId) (now : Instant) :
      Stages (.event tx ctx message) (.fresh message id now ctx) .outbox
  | command (tx : Transaction) (ctx : Context) {messages : List α} {message : α}
      (hmessage : message ∈ messages) (id : MessageId) (now : Instant) :
      Stages (.commands tx ctx messages) (.fresh message id now ctx) .internal

theorem Stages.namesItsType {posting : Posting κ α} {envelope : Envelope α} {delivery : Delivery}
    (h : posting.Stages envelope delivery) : envelope.NamesItsType := by
  cases h with
  | saved _ _ hnames => exact hnames
  | event _ ctx message id now => exact Envelope.fresh_namesItsType message id now ctx
  | command _ ctx _ id now => exact Envelope.fresh_namesItsType _ id now ctx

/-- A posting of envelopes that name the type of their payload. -/
def IsTyped : Posting κ α → Prop
  | .save _ envelope _ => envelope.NamesItsType
  | .event _ _ _ => True
  | .commands _ _ _ => True
  | .other _ => False

def Drafts (posting : Posting κ α) (draft : Draft) : Prop :=
  ∃ envelope delivery, posting.Stages envelope delivery ∧
    draft = Staging.draftOf envelope.toRaw (Message.typeName α) delivery

theorem keeps_program (posting : Posting κ α) :
    posting.program.Keeps (drafting fun draft => posting.IsTyped → posting.Drafts draft)
      (fun _ _ => True) () := by
  by_cases htyped : posting.IsTyped
  · cases posting with
    | save tx envelope delivery =>
        refine Work.Drafts.alone (Staging.drafts_save htyped ?_) tx
        exact fun _ => ⟨envelope, delivery, .saved tx delivery htyped, rfl⟩
    | event tx ctx message =>
        refine Work.Drafts.alone (Staging.drafts_event ?_) tx
        exact fun id now _ => ⟨_, .outbox, .event tx ctx message id now, rfl⟩
    | commands tx ctx messages =>
        refine Work.Drafts.alone (Staging.drafts_schedule ?_) tx
        exact fun message hmessage id now _ => ⟨_, .internal, .command tx ctx hmessage id now, rfl⟩
    | other program => cases htyped
  · exact Program.keeps_drafting (fun draft hnow => absurd hnow htyped) posting.program

end Posting

/-- Postings amid whatever else goes on around the store, whose calls may all fail. -/
def posting (κ α : Type) [Message α] : Rules κ (Posting κ α) Unit where
  admits _ _ := true
  program := Posting.program
  bystander _ := true
  mishap _ _ := true
  clears := false

theorem posting_follows [Message α] :
    (posting κ α).Follows
      (fun task => drafting fun draft => task.IsTyped → task.Drafts draft) fun _ => () :=
  Posting.keeps_program

def Call.staged? : (call : Call κ) → call.Answer → Option Row
  | .stage _ _, Except.ok (_, row) => some row
  | _, _ => none

def StagedBy (history : List (Moment κ τ)) (worker : Worker τ) (row : Row) : Prop :=
  ∃ moment ∈ history, moment.worker = some worker ∧
    moment.call.staged? moment.answer = some row

theorem Rules.Makes.of_staged {rules : Rules κ τ ρ} {world : World κ τ ρ} {moment : Moment κ τ}
    (h : rules.Makes world moment) {row : Row}
    (hstaged : moment.call.staged? moment.answer = some row) :
    row ∈ moment.shown ∧ ∃ draft, moment.call.draft? = some draft ∧
      ∃ id now, row = Row.fresh id draft now := by
  have hplausible := h.plausible
  obtain ⟨worker, call, answer, before, after⟩ := moment
  cases call with
  | stage tx draft =>
      match answer with
      | .error error => cases hstaged
      | .ok (written, staged) =>
          obtain rfl := Option.some.inj hstaged
          exact ⟨List.mem_singleton_self staged, draft, rfl, hplausible.1⟩
  | _ => cases hstaged

/-- A row that was staged for a typed envelope carries it, and so does every version of the row,
whatever goes on later: it stays the same message, it stays in the store once it is committed, and a
router reads the very envelope back. -/
theorem postings_kept [Message α] [Message.Lossless α] (actions : List (Action κ (Posting κ α)))
    {worker : Worker (Posting κ α)} (htyped : worker.task.IsTyped) {row : Row}
    (hrow : StagedBy ((posting κ α).world actions).history worker row) :
    ∃ envelope delivery, worker.task.Stages envelope delivery ∧ row.delivery = delivery ∧
      row.Carries envelope ∧ ∀ later : List (Action κ (Posting κ α)),
        (∀ version ∈ ((posting κ α).world (later ++ actions)).known, version.id = row.id →
          row.SameMessage version ∧ version.Carries envelope ∧
            ∀ router : Router κ, router.registry.Agrees α →
              router.decode version = .ok envelope.toRaw) ∧
        ∀ current, ((posting κ α).world actions).store.get? row.id = some current →
          ∃ version, ((posting κ α).world (later ++ actions)).store.get? row.id = some version := by
  obtain ⟨moment, hmoment, hworker, hstaged⟩ := hrow
  obtain ⟨_, past, hhistory⟩ := List.append_of_mem hmoment
  obtain ⟨earlier, _, hmakes⟩ := World.made_earlier rfl actions hhistory
  obtain ⟨hshown, draft, hdraft, id, now, hfresh⟩ := hmakes.of_staged hstaged
  obtain ⟨envelope, delivery, hstages, rfl⟩ :=
    hmakes.allows posting_follows hworker draft hdraft htyped
  have hcarries : row.Carries envelope := by
    rw [hfresh]
    exact Row.carries_fresh hstages.namesItsType delivery id now
  have hdelivery : row.delivery = delivery := by
    rw [hfresh]
    rfl
  have hseen : row ∈ ((posting κ α).world actions).handedOut :=
    List.mem_flatMap.2 ⟨moment, hmoment, hshown⟩
  refine ⟨envelope, delivery, hstages, hdelivery, hcarries, fun later => ⟨?_, ?_⟩⟩
  · intro version hversion hid
    have hknown : row ∈ ((posting κ α).world (later ++ actions)).known :=
      List.mem_append_right _ (World.handedOut_later _ later hseen)
    have hsame : row.SameMessage version := World.sameMessage hknown hversion hid
    have hversion : version.Carries envelope := hcarries.of_same hsame
    exact ⟨hsame, hversion, fun router hagrees => hversion.decode hagrees⟩
  · intro current hcurrent
    obtain ⟨version, hversion, _⟩ := World.stays rfl later hcurrent
    exact ⟨version, hversion⟩

/-- The posting of an update for its handler, for use in examples. -/
def lateUpdatePosting : Posting Unit SummaryUpdate :=
  .save Transaction.empty lateUpdate .internal

def lateUpdatePosted : List (Action Unit (Posting Unit SummaryUpdate)) :=
  [.work 0 { clock := epoch }, .start lateUpdatePosting, .call .begin { clock := epoch }]

def lateUpdateRow : Row :=
  Row.fresh ⟨1⟩ (Staging.draftOf lateUpdate.toRaw "UpdateOrderReadModel" .internal) epoch

theorem lateUpdate_kept :
    lateUpdatePosting.IsTyped ∧
      StagedBy ((posting Unit SummaryUpdate).world lateUpdatePosted).history
        ⟨0, lateUpdatePosting⟩ lateUpdateRow ∧
      lateUpdateRow.Carries lateUpdate ∧
      (⟨Registry.empty.registerOrders fun _ => (), Table.empty⟩ : Router Unit).decode lateUpdateRow =
        .ok lateUpdate.toRaw := by
  have htyped : lateUpdatePosting.IsTyped := by
    have hnames : lateUpdate.NamesItsType := by decide
    exact hnames
  have hstaged : StagedBy ((posting Unit SummaryUpdate).world lateUpdatePosted).history
      ⟨0, lateUpdatePosting⟩ lateUpdateRow := ⟨_, List.mem_cons_self, rfl, rfl⟩
  obtain ⟨envelope, delivery, hstages, _, hcarries, hlater⟩ :=
    postings_kept lateUpdatePosted htyped hstaged
  cases hstages
  have hknown : lateUpdateRow ∈ ((posting Unit SummaryUpdate).world lateUpdatePosted).known :=
    List.mem_append_right _ List.mem_cons_self
  have hagrees : ((Registry.empty : Registry Unit).registerOrders fun _ => ()).Agrees
      SummaryUpdate :=
    (Registry.agrees_registerOrders _ (Registry.agrees_empty _) (Registry.agrees_empty _)
      (Registry.agrees_empty _)).2.2
  exact ⟨htyped, hstaged, hcarries, ((hlater []).1 _ hknown rfl).2.2 _ hagrees⟩

end Courier
