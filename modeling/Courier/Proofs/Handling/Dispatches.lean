import Courier.Order.Registration
import Courier.Proofs.Envelope.Typed
import Courier.Proofs.Handling.Receipts
import Courier.Proofs.Interleaving.Versions
import Courier.Proofs.Publishing.Reasons
/-
What the inbox admits can be dispatched.  Admission checks an envelope before it is stored, and dispatch
reads it back from its row and looks its handler up again; under one registry they agree.  So such a
row is handed to its handler as it came in, and never given up for what it says.
-/
namespace Courier

variable {κ τ α : Type}

namespace Registry

/-- A registration is that of a type: it decodes envelopes as the type, and its handler, if it has one,
makes commands of the type's payloads. -/
inductive Registers : String → Registration κ → Prop where
  | known (α : Type) [Message α] : Registers (Message.typeName α) ⟨decodeAs α, none⟩
  | handled (α : Type) [Message α] (name : String) (make : α → κ) :
      Registers (Message.typeName α) ⟨decodeAs α, some ⟨name, commandAs α make⟩⟩

/-- A registry as it is filled at the start of a process. -/
inductive Built : Registry κ → Prop where
  | empty : Built empty
  | register {registry : Registry κ} (h : Built registry) (α : Type) [Message α] :
      Built (registry.register α)
  | registerHandler {registry : Registry κ} (h : Built registry) (α : Type) [Message α] (name : String)
      (make : α → κ) : Built (registry.registerHandler α name make)

/-- An envelope is for a handler: it names the type that the handler is registered for, and its payload
decodes as that.  The command has exactly this payload, and the envelope's metadata. -/
inductive Commands (registry : Registry κ) (raw : RawEnvelope) : Envelope κ → Prop where
  | intro {α : Type} [Message α] {name : String} {make : α → κ} {payload : α}
      (htype : raw.typeName? = some (Message.typeName α))
      (hregistered : registry.entries.get? (Message.typeName α) =
        some ⟨decodeAs α, some ⟨name, commandAs α make⟩⟩)
      (hpayload : (Message.ofJson? raw.message : Option α) = some payload) :
      Commands registry raw ⟨make payload, raw.metadata⟩

variable {registry : Registry κ} {raw : RawEnvelope} {command : Envelope κ}

theorem registers_insert {entries : Table (Registration κ)} {added : String} {new : Registration κ}
    (hold : ∀ name registration, entries.get? name = some registration → Registers name registration)
    (hnew : Registers added new) (name : String) (registration : Registration κ)
    (hfound : (entries.insert added new).get? name = some registration) :
    Registers name registration := by
  by_cases hname : name = added
  · subst hname
    rw [Table.get?_insert_self] at hfound
    obtain rfl := Option.some.inj hfound
    exact hnew
  · rw [Table.get?_insert_of_ne _ hname] at hfound
    exact hold name registration hfound

theorem Built.registers (h : registry.Built) : ∀ name registration,
    registry.entries.get? name = some registration → Registers name registration := by
  induction h with
  | empty => exact fun _ _ hfound => nomatch hfound
  | register h α ih =>
      unfold Registry.register
      dsimp only
      split
      · exact ih
      · exact registers_insert ih (.known α)
  | registerHandler h α name make ih => exact registers_insert ih (.handled α name make)

/-- What the inbox admits decodes as a registered type, and has a handler. -/
theorem registered_of_check {name : String} (htype : raw.typeName? = some name)
    (hcheck : Inbox.check registry raw = .ok ()) : ∃ registration,
      registry.entries.get? name = some registration ∧ registration.decode raw = .ok () ∧
        registration.handler.isSome = true := by
  cases hfound : registry.entries.get? name with
  | none =>
      simp only [Inbox.check, decode, lookup, htype, Option.getD_some, hfound] at hcheck
      cases hcheck
  | some registration =>
      refine ⟨registration, rfl, ?_⟩
      simp only [Inbox.check, decode, lookup, hasHandler, htype, Option.getD_some, hfound,
        Option.any_some, bind, Except.bind] at hcheck
      cases hdecode : registration.decode raw with
      | error error =>
          rw [hdecode] at hcheck
          cases hcheck
      | ok value =>
          rw [hdecode] at hcheck
          refine ⟨rfl, ?_⟩
          by_contra hnone
          simp only [hnone] at hcheck
          cases hcheck

/-- An envelope unwraps as the type that it names once its payload decodes. -/
theorem unwrap_of_payload [Message α] {payload : α}
    (htype : raw.typeName? = some (Message.typeName α))
    (hpayload : Message.ofJson? raw.message = some payload) :
    Envelope.unwrap α raw = .ok ⟨payload, raw.metadata⟩ := by
  simp only [Envelope.unwrap, htype, Option.getD_some, ↓reduceIte, hpayload]

/-- What the inbox admits is for a handler. -/
theorem Built.commands (h : registry.Built) {name : String} (htype : raw.typeName? = some name)
    (hcheck : Inbox.check registry raw = .ok ()) : ∃ command, registry.Commands raw command := by
  obtain ⟨registration, hfound, hdecode, hhandler⟩ := registered_of_check htype hcheck
  cases h.registers name registration hfound with
  | known α => cases hhandler
  | @handled α _ handler make =>
      cases hpayload : (Message.ofJson? raw.message : Option α) with
      | none =>
          simp only [decodeAs, Envelope.unwrap, htype, Option.getD_some, ↓reduceIte, hpayload]
            at hdecode
          cases hdecode
      | some payload => exact ⟨_, .intro htype hfound hpayload⟩

namespace Commands

theorem decodes (h : registry.Commands raw command) : registry.decode raw = .ok () := by
  cases h with
  | @intro α _ _ _ _ htype hregistered hpayload =>
      simp only [Registry.decode, lookup, htype, Option.getD_some, hregistered]
      change decodeAs α raw = .ok ()
      rw [decodeAs, unwrap_of_payload htype hpayload]
      rfl

theorem command_eq (h : registry.Commands raw command) : registry.command raw = .ok command := by
  cases h with
  | @intro α _ _ make _ htype hregistered hpayload =>
      simp only [Registry.command, lookup, htype, Option.getD_some, hregistered]
      change commandAs α make raw = _
      rw [commandAs, unwrap_of_payload htype hpayload]
      rfl

end Commands

end Registry

/-- Under a registry, a row is read back as an envelope, and delivering it gives a handler a command. -/
structure Row.Dispatches (row : Row) (registry : Registry κ) (raw : RawEnvelope)
    (command : Envelope κ) : Prop where
  decoded : ∀ router : Router κ, router.registry = registry → router.decode row = .ok raw
  delivered : ∀ router : Router κ, router.registry = registry → router.deliver row raw =
    .ask (.handle command) fun answer => .done (answer.mapError BusError.ofMessaging)
  /-- The next call of a tick that has claimed the row is that on the handler. -/
  next : ∀ publisher : Publisher κ, publisher.router.registry = registry → ∀ now report, ∃ rest,
    (publisher.deliver row now).runFrom report = .ask (.handle command) rest

/-- A row that was staged for an envelope is dispatched as the envelope is. -/
theorem Registry.Commands.dispatches {registry : Registry κ} {raw : RawEnvelope}
    {command : Envelope κ} (h : registry.Commands raw command) {name : String}
    (htype : raw.typeName? = some name) {row : Row}
    (hdraft : row.draft = Staging.draftOf raw name .inbox) : row.Dispatches registry raw command := by
  have hdata : row.data = RawEnvelope.toJson raw := congrArg Draft.data hdraft
  have hname : row.dataType = name := congrArg Draft.dataType hdraft
  have hdelivery : row.delivery = .inbox := congrArg Draft.delivery hdraft
  have hdecoded : ∀ router : Router κ, router.registry = registry → router.decode row = .ok raw := by
    rintro router rfl
    simp only [Router.decode, hdata, RawEnvelope.ofJson_toJson, bind, Except.bind, htype, hname,
      ↓reduceIte, h.decodes]
    split
    · rfl
    · rfl
  have hdelivered : ∀ router : Router κ, router.registry = registry → router.deliver row raw =
      .ask (.handle command) fun answer => .done (answer.mapError BusError.ofMessaging) := by
    rintro router rfl
    rw [router.deliver_inside row raw (by simp [hdelivery])]
    rcases router.registry.schedule_cases raw with ⟨error, hcommand, _⟩ | ⟨other, hcommand, hschedule⟩
    · cases h.command_eq.symm.trans hcommand
    · obtain rfl := Except.ok.inj (h.command_eq.symm.trans hcommand)
      exact hschedule
  refine ⟨hdecoded, hdelivered, fun publisher hregistry now report => ?_⟩
  unfold Publisher.deliver
  rw [hdecoded publisher.router hregistry]
  dsimp only
  rw [hdelivered publisher.router hregistry]
  exact ⟨_, rfl⟩

/-- A tick that hands such a row over gives it to the handler. -/
theorem Row.Dispatches.handled {shift : Shift κ} {row : Row} {raw : RawEnvelope}
    {command : Envelope κ} (h : row.Dispatches shift.publisher.router.registry raw command)
    {call : Call κ} (hhands : shift.HandsOver row call) : call = .handle command := by
  obtain ⟨envelope, hdecode, next, hdelivers⟩ := hhands
  obtain rfl := Except.ok.inj ((h.decoded _ rfl).symm.trans hdecode)
  have hcalls := (h.delivered _ rfl).symm.trans hdelivers
  injection hcalls with hcall
  exact hcall.symm

/-- A claim that was won is known. -/
theorem World.known_of_held {ρ : Type} {world : World κ τ ρ} {number : Nat} {past : List (Moment κ τ)}
    {row : Row} (hpast : past ⊆ world.history) (h : held number past = some row) :
    row ∈ world.known := by
  obtain ⟨moment, hmoment, hshown⟩ := List.mem_flatMap.1 (held_shown h)
  have hseen : row ∈ world.handedOut := List.mem_flatMap.2 ⟨moment, hpast hmoment, hshown⟩
  exact mem_known.2 (Or.inr (Or.inr hseen))

/-- A reason to give up a row that does not lie in what the row says: its handler has refused its
command for good, or a counter has reached the ceiling. -/
inductive Shift.OuterReason (shift : Shift κ) (command : Envelope κ) (number : Nat)
    (past : List (Moment κ τ)) (row : Row) : Prop where
  | refused {claimed : Row} (hid : claimed.id = row.id) {error : MessagingError}
      (hanswer : AnsweredIn number past claimed (.handled command (.error error)))
      (hpermanent : error.isPermanent = true)
  | exhausted (hceiling : shift.publisher.settings.maxRetries ≤ row.retries)
  | waited (hceiling : shift.publisher.settings.maxRetries ≤ row.deferrals) {cause : MessageId}
      (hcause : row.causationId = some cause) {moment : Moment κ τ} (hmoment : moment ∈ past)
      (hby : moment.isBy number = true)
      (hunresolved : moment.call.unresolved? moment.answer = some cause)

/-- Where claims are dispatched, nothing that a row says is a reason to give it up. -/
theorem Shift.Reason.outer {shift : Shift κ} {number : Nat} {past : List (Moment κ τ)} {row : Row}
    {raw : RawEnvelope} {command : Envelope κ} (h : shift.Reason number past row)
    (hcommands : shift.publisher.router.registry.Commands raw command)
    (hclaims : ∀ claimed, held number past = some claimed → claimed.id = row.id →
      claimed.Dispatches shift.publisher.router.registry raw command) :
    shift.OuterReason command number past row := by
  cases h with
  | exhausted hceiling => exact .exhausted hceiling
  | waited hceiling hcause hmoment hby hunresolved =>
      exact .waited hceiling hcause hmoment hby hunresolved
  | unreadable hheld hid hdecode =>
      cases ((hclaims _ hheld hid).decoded _ rfl).symm.trans hdecode
  | @refused claimed envelope handed error hheld hid hdecode hdelivers hpermanent hheard =>
      have hclaim := hclaims claimed hheld hid
      obtain rfl := Except.ok.inj ((hclaim.decoded _ rfl).symm.trans hdecode)
      generalize hresult : Except.error error = result at hdelivers
      cases hdelivers with
      | outgoing hdelivery =>
          have hpublish := shift.publisher.router.deliver_outbox claimed raw hdelivery
          cases (hclaim.delivered _ rfl).symm.trans hpublish
      | nobody hdelivery hcommand => cases hcommands.command_eq.symm.trans hcommand
      | inside hdelivery hcommand answer =>
          obtain rfl := Except.ok.inj (hcommands.command_eq.symm.trans hcommand)
          cases answer with
          | ok value => cases hresult
          | error given =>
              obtain rfl := Except.error.inj hresult
              rw [BusError.isRetryable_ofMessaging, Bool.not_eq_false'] at hpermanent
              exact .refused hid (hheard _ (List.mem_singleton_self _)) hpermanent

namespace InboxTask

def registry? : InboxTask κ → Option (Registry κ)
  | .receive registry _ => some registry
  | .receiveOctets registry _ => some registry
  | .tick _ => none

def shift? : InboxTask κ → Option (Shift κ)
  | .tick shift => some shift
  | _ => none

/-- Only ticks change rows and deliver them, and they keep to their protocol. -/
theorem keeps_shift (task : InboxTask κ) :
    task.program.Keeps (Shift.protocolOf task.shift?) (fun _ _ => True) Courier.Phase.start := by
  have haside : task.isTick = false →
      task.program.Keeps Shift.aside (fun _ _ => True) Courier.Phase.start := by
    intro hreceives
    refine (keeps_program task).elsewhere (fun phase call hallows place => ?_) _
    cases call with
    | swap change => exact absurd (hreceives.symm.trans hallows) Bool.false_ne_true
    | publish routingKey envelope => exact absurd (hreceives.symm.trans hallows) Bool.false_ne_true
    | handle command => exact absurd (hreceives.symm.trans hallows) Bool.false_ne_true
    | _ => exact ⟨rfl, rfl⟩
  cases task with
  | receive registry raw => exact haside rfl
  | receiveOctets registry octets => exact haside rfl
  | tick shift => exact Program.Keeps.bind ((Publisher.keeps_tick shift).mono fun _ _ _ => trivial)

/-- Only ticks need grounds. -/
theorem keeps_reasoning (task : InboxTask κ) :
    task.program.Keeps (Shift.reasoningOf task.shift?) (fun _ _ => True) Ground.start := by
  have haside : task.program.Keeps (Shift.reasoningOf none) (fun _ _ => True) Ground.start :=
    (keeps_program task).elsewhere (fun _ _ _ _ => trivial) _
  cases task with
  | receive registry raw => exact haside
  | receiveOctets registry octets => exact haside
  | tick shift => exact Program.Keeps.bind ((Publisher.reasons_tick shift).mono fun _ _ _ => trivial)

def Admits (task : InboxTask κ) : Outcome → Prop
  | .received (.ok (.recorded _)) => ∀ registry raw, task.registry? = some registry →
      task.envelope? = some raw → Inbox.check registry raw = .ok ()
  | _ => True

/-- A protocol that cares for nothing but how programs end. -/
def ending : Protocol κ Unit :=
  ⟨fun _ _ => True, fun _ _ _ => ()⟩

theorem keeps_ending {ends : α → Prop} (hends : ∀ value, ends value) (program : Program κ α) :
    program.Keeps ending (fun value _ => ends value) () := by
  induction program with
  | done value => exact hends value
  | ask call next ih => exact ⟨trivial, fun answer _ => ih answer⟩

/-- Whatever is recorded was checked first. -/
theorem keeps_checked {task : InboxTask κ} {registry : Registry κ} {raw : RawEnvelope}
    (hregistry : task.registry? = some registry) (henvelope : task.envelope? = some raw) :
    Program.Keeps ending (fun outcome _ => task.Admits (.received outcome))
      (Inbox.receive registry raw) () := by
  cases hcheck : Inbox.check registry raw with
  | error error =>
      unfold Inbox.receive
      rw [hcheck]
      exact trivial
  | ok value =>
      have hadmits : ∀ outcome, task.Admits (.received outcome) := by
        intro outcome
        match outcome with
        | .ok (.recorded row) =>
            intro other given hother hgiven
            obtain rfl := Option.some.inj (hregistry.symm.trans hother)
            obtain rfl := Option.some.inj (henvelope.symm.trans hgiven)
            exact hcheck
        | .ok (.duplicate id) => trivial
        | .error error => trivial
      exact keeps_ending hadmits _

theorem keeps_admits (task : InboxTask κ) :
    task.program.Keeps ending (fun outcome _ => task.Admits outcome) () := by
  cases task with
  | receive registry raw => exact Program.Keeps.bind (keeps_checked rfl rfl)
  | receiveOctets registry octets =>
      refine Program.Keeps.bind (Program.Keeps.andThen (Program.Keeps.ofExcept
        ⟨fun raw hraw => ?_, fun _ _ => trivial⟩))
      exact keeps_checked rfl (congrArg Except.toOption hraw)
  | tick shift => exact Program.Keeps.bind (keeps_ending (fun _ => trivial) _)

end InboxTask

/-- The inbox takes envelopes while publishers tick and others do whatever they like, but only publishers
change rows and deliver them.  The store may fail at any call, in any way. -/
def dispatching (κ : Type) : Rules κ (InboxTask κ) InboxTask.Outcome where
  admits _ _ := true
  program := InboxTask.program
  bystander call := !call.isSwap && !call.isHandOver
  mishap _ _ := true
  clears := false

theorem dispatching_publishes : (dispatching κ).Publishes InboxTask.shift? where
  follows := InboxTask.keeps_shift
  bystander _ h := by
    obtain ⟨hswap, hover⟩ := Bool.and_eq_true_iff.1 h
    exact ⟨by simpa using hswap, by simpa using hover⟩
  lasting := rfl

theorem dispatching_reasoning :
    (dispatching κ).Follows (fun task => Shift.reasoningOf task.shift?) fun _ => Ground.start :=
  InboxTask.keeps_reasoning

section dispatching

variable {actions : List (Action κ (InboxTask κ))} {number : Nat} {task : InboxTask κ} {row : Row}
  {registry : Registry κ} {raw : RawEnvelope} {command : Envelope κ}

/-- A call that has returned is a worker whose program is over. -/
theorem World.Returned.done {world : World κ (InboxTask κ) InboxTask.Outcome}
    {outcome : Except MessagingError Received} (h : world.Returned number task outcome) :
    world.jobs[(⟨number, task⟩ : Worker (InboxTask κ)).number]? =
      some ⟨task, .done (.received outcome)⟩ :=
  h

theorem checked_of_returned
    (h : ((dispatching κ).world actions).Returned number task (.ok (.recorded row)))
    (hregistry : task.registry? = some registry) (henvelope : task.envelope? = some raw) :
    Inbox.check registry raw = .ok () := by
  have hfollows : (dispatching κ).FollowsTo (fun _ => InboxTask.ending)
      (fun task outcome _ => task.Admits outcome) fun _ => () := InboxTask.keeps_admits
  exact (World.keeping hfollows actions).ended h.done registry raw hregistry henvelope

theorem dispatching_followsTo :
    (dispatching κ).FollowsTo InboxTask.protocol InboxTask.ends fun _ => .start :=
  InboxTask.keeps_program

/-- A row is in the store under its number, and it is for the message that a call of the inbox was
given. -/
structure Row.Accepted (row : Row) (number : Nat) (store : Store)
    (history : List (Moment κ (InboxTask κ))) : Prop where
  kept : row.label ∈ store.rows.map Row.label
  asked : ∃ moment ∈ history, ∃ worker, moment.worker = some worker ∧ worker.number = number ∧
    worker.task.draft? = some row.draft

/-- What a call of the inbox has recorded stays accepted. -/
theorem recorded_accepted (actions : List (Action κ (InboxTask κ))) :
    ∀ number row, intake number ((dispatching κ).world actions).history = .recorded row →
      row.Accepted number ((dispatching κ).world actions).store
        ((dispatching κ).world actions).history := by
  refine Rules.call_induction rfl (fun store _ history => ∀ number row,
    intake number history = .recorded row → row.Accepted number store history)
    (fun _ _ h => nomatch h) ?_ actions
  intro earlier moment ih hmakes number row hrecorded
  rcases intake_recorded.1 hrecorded with hold | ⟨hby, hstaged, hcommits⟩
  · obtain ⟨hlabel, made, hmade, hasked⟩ := ih number row hold
    refine ⟨?_, made, List.mem_cons_of_mem _ hmade, hasked⟩
    rcases hmakes.stores_part Row.label (fun _ _ => rfl) with ⟨_, hsame⟩ | ⟨_, _, _, _, hperm⟩
    · rwa [hsame]
    · rw [(hperm.map Row.label).mem_iff, List.map_append]
      exact List.mem_append_left _ hlabel
  · obtain ⟨worker, hworker, rfl⟩ := Moment.isBy_iff.1 hby
    have hallows := hmakes.allows
      (fun task => (dispatching_followsTo task).mono fun _ _ _ => trivial) hworker
    rw [phase_eq_intake] at hallows
    obtain ⟨tx, hcall, hcommit⟩ := hmakes.of_commits hcommits
    rw [hcall] at hallows
    obtain ⟨held, hheld, rfl, hdraft⟩ := hallows
    obtain rfl := InboxTask.Phase.staged.inj (hstaged.symm.trans hheld)
    refine ⟨?_, moment, List.mem_cons_self, worker, hworker, rfl, hdraft⟩
    rw [hmakes.before] at hcommit
    have hopen : (⟨[row], []⟩ : Transaction) ∈ ((dispatching κ).world earlier).transactions :=
      ((dispatching κ).world earlier).tx_mem_of_mayCall hmakes.may (by rw [hcall]; rfl)
    have hperm := (World.sound (dispatching κ) earlier).committed_perm hopen hcommit
    rw [(hperm.map Row.label).mem_iff, List.map_append]
    exact List.mem_append_right _ (List.mem_singleton_self _)

/-- What is recorded is in the store, and whatever is known under its number is its message. -/
theorem recorded_known
    (h : ((dispatching κ).world actions).Returned number task (.ok (.recorded row))) :
    (∃ kept ∈ ((dispatching κ).world actions).store.rows, kept.id = row.id) ∧
      ∀ version ∈ ((dispatching κ).world actions).known, version.id = row.id →
        task.draft? = some version.draft := by
  have hkeeping := World.keeping dispatching_followsTo actions
  have hends := hkeeping.ended h.done
  rw [phase_eq_intake] at hends
  obtain ⟨hlabel, moment, hmoment, worker, hworker, rfl, hasked⟩ :=
    recorded_accepted actions number row hends.2
  obtain ⟨rest, hjob⟩ := hkeeping.worker moment hmoment worker hworker
  have htask := congrArg Job.task (Option.some.inj (hjob.symm.trans h))
  simp only at htask
  obtain ⟨kept, hkept, heq⟩ := List.mem_map.1 hlabel
  obtain ⟨hid, hmessage⟩ := Prod.mk.inj heq
  refine ⟨⟨kept, hkept, hid⟩, fun version hversion hnumber => ?_⟩
  have hversions := World.sameMessage (World.known_of_committed hkept) hversion
    (hnumber.trans hid.symm)
  have hsame : version.original.draft = kept.original.draft :=
    congrArg Row.draft (Row.sameMessage_iff.1 hversions)
  rw [← htask, hasked, ← hmessage]
  exact congrArg some hsame.symm

/-- What becomes of a row that was admitted for a handler under a registry, wherever publishers have
the same registry. -/
structure World.Dispatches (world : World κ (InboxTask κ) InboxTask.Outcome) (registry : Registry κ)
    (raw : RawEnvelope) (command : Envelope κ) (id : RowId) : Prop where
  kept : ∃ row ∈ world.store.rows, row.id = id
  /-- Whatever has become of it, the row is read as the envelope that came in. -/
  read : ∀ row ∈ world.known, row.id = id → row.Dispatches registry raw command
  /-- A publisher that hands it over gives it to the handler. -/
  handled : ∀ later moment past worker shift claimed, world.history = later ++ moment :: past →
    moment.worker = some worker → worker.task.shift? = some shift →
    shift.publisher.router.registry = registry → held worker.number past = some claimed →
    claimed.id = id → moment.call.isHandOver = true → moment.call = .handle command
  /-- A publisher that gives it up does so for what has happened to it. -/
  givenUp : ∀ row ∈ world.store.rows, row.id = id → row.deadLettered = true →
    GivenUp InboxTask.shift? (fun shift number past row =>
      shift.publisher.router.registry = registry → shift.OuterReason command number past row)
      world.history row

/-- In every interleaving of deliveries, publishers and other writers, whatever the store, the bus and
the handlers answer: what the inbox records is for a handler, and is dispatched to it as it came in. -/
theorem admitted_dispatched (actions : List (Action κ (InboxTask κ))) (hbuilt : registry.Built)
    (hregistry : task.registry? = some registry) (henvelope : task.envelope? = some raw)
    (hreturned : ((dispatching κ).world actions).Returned number task (.ok (.recorded row))) :
    ∃ command, registry.Commands raw command ∧
      ((dispatching κ).world actions).Dispatches registry raw command row.id := by
  obtain ⟨hkept, hknown⟩ := recorded_known hreturned
  obtain ⟨kept, hthere, hid⟩ := hkept
  have hcheck := checked_of_returned hreturned hregistry henvelope
  have hdraft := hknown kept (World.known_of_committed hthere) hid
  simp only [InboxTask.draft?, henvelope, Option.bind_some, Option.map_eq_some_iff] at hdraft
  obtain ⟨name, htype, hsaved⟩ := hdraft
  obtain ⟨command, hcommands⟩ := hbuilt.commands htype hcheck
  have hread : ∀ version ∈ ((dispatching κ).world actions).known, version.id = row.id →
      version.Dispatches registry raw command := by
    intro version hversion hnumber
    have hsame := hknown version hversion hnumber
    simp only [InboxTask.draft?, henvelope, Option.bind_some, htype, Option.map_some,
      Option.some.injEq] at hsame
    exact hcommands.dispatches htype hsame.symm
  refine ⟨command, hcommands, ⟨kept, hthere, hid⟩, hread, ?_, ?_⟩
  · intro later moment past worker shift claimed hhistory hworker hshift hsame hheld hnumber hover
    obtain ⟨earlier, rfl, hmakes⟩ := World.made_earlier rfl actions hhistory
    obtain ⟨same, other, own, hsameWorker, hother, hhold, hhands⟩ :=
      dispatching_publishes.hands_over hmakes hover
    obtain rfl := Option.some.inj (hworker.symm.trans hsameWorker)
    obtain rfl := Option.some.inj (hshift.symm.trans hother)
    obtain rfl := Option.some.inj (hheld.symm.trans (held_of_hold hhold))
    have hpast : ((dispatching κ).world earlier).history ⊆ ((dispatching κ).world actions).history := by
      rw [hhistory]
      exact fun _ hmem => List.mem_append_right _ (List.mem_cons_of_mem _ hmem)
    subst hsame
    exact (hread claimed (World.known_of_held hpast hheld) hnumber).handled hhands
  · intro version hversion hnumber hdead
    refine (dispatching_publishes.given_up dispatching_reasoning actions version hversion hdead).mono ?_
    intro shift number past hpast hreason hsame
    subst hsame
    exact hreason.outer hcommands fun claimed hheld hid =>
      hread claimed (World.known_of_held hpast hheld) (hid.trans hnumber)

end dispatching

/-- The types of orders may be registered with any others. -/
theorem Registry.Built.registerOrders {registry : Registry κ} (h : registry.Built)
    (make : SummaryUpdate → κ) : (registry.registerOrders make).Built :=
  .registerHandler (.register (.register h OrderPlaced) OrderCancelled) SummaryUpdate _ make

/-- Updates of summaries are handled, and what they say does not matter. -/
def handlingUpdates : Registry Unit :=
  Registry.empty.registerOrders fun _ => ()

/-- An update comes in, and its handler refuses it for good. -/
def updateRefused : List (Action Unit (InboxTask Unit)) :=
  List.replicate 9 (.work 1 { clock := epoch, handled := .error (.malformed "no such order") }) ++
    [.start (.tick ⟨⟨⟨handlingUpdates, Table.empty⟩, {}⟩, epoch⟩)] ++
    List.replicate 4 (.work 0 { clock := epoch }) ++
    [.start (.receive handlingUpdates lateUpdate.toRaw)]

def updateRow : Row :=
  Row.fresh ⟨1⟩ (Staging.draftOf lateUpdate.toRaw "UpdateOrderReadModel" .inbox) epoch

/-- The update is for a handler, and what the handler answers makes a dead letter of it. -/
theorem update_dispatched :
    (∃ command, handlingUpdates.Commands lateUpdate.toRaw command ∧
      ((dispatching Unit).world updateRefused).Dispatches handlingUpdates lateUpdate.toRaw command
        updateRow.id) ∧
    ((dispatching Unit).world updateRefused).store.rows.map (·.deadLettered) = [true] := by
  have hreturned : ((dispatching Unit).world updateRefused).Returned 0
      (.receive handlingUpdates lateUpdate.toRaw) (.ok (.recorded updateRow)) := by
    with_unfolding_all rfl
  have hbuilt : handlingUpdates.Built := Registry.Built.empty.registerOrders fun _ => ()
  exact ⟨admitted_dispatched updateRefused hbuilt rfl rfl hreturned, by decide +kernel⟩

end Courier
