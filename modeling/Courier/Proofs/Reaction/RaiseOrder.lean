import Courier.Proofs.Reaction.Contexts
import Courier.Proofs.Time.Order
/-
Raise order.  A dispatch takes events in the order in which they were raised, whatever order they are
given in, and runs the reactions to each in the order of their registration until one fails.  Events of
one recorder never share a sequence number, so that their order leaves nothing open.
-/
namespace Courier

variable {κ σ α β ε : Type}

namespace RaisedEvent

def key (raised : RaisedEvent ε) : Instant × Nat :=
  (raised.raisedAt, raised.sequence)

/-- Raised earlier, or at the same time with a smaller sequence number. -/
def Before (a b : RaisedEvent ε) : Prop :=
  a.raisedAt < b.raisedAt ∨ a.raisedAt = b.raisedAt ∧ a.sequence < b.sequence

theorem notAfter_iff {a b : RaisedEvent ε} :
    a.notAfter b = true ↔ a.raisedAt.position < b.raisedAt.position ∨
      a.raisedAt.position = b.raisedAt.position ∧ a.sequence ≤ b.sequence := by
  unfold notAfter
  split
  · rename_i hsame
    rw [hsame, decide_eq_true_iff]
    omega
  · rename_i hother
    rw [decide_eq_true_iff, Instant.le_iff]
    have hne : a.raisedAt.position ≠ b.raisedAt.position :=
      fun heq => hother (Instant.eq_of_position_eq heq)
    omega

theorem notAfter_trans (a b c : RaisedEvent ε) (hab : a.notAfter b = true)
    (hbc : b.notAfter c = true) : a.notAfter c = true := by
  rw [notAfter_iff] at hab hbc ⊢
  omega

theorem notAfter_total (a b : RaisedEvent ε) : (a.notAfter b || b.notAfter a) = true := by
  rw [Bool.or_eq_true, notAfter_iff, notAfter_iff]
  omega

theorem before_of_notAfter {a b : RaisedEvent ε} (h : a.notAfter b = true) (hkey : a.key ≠ b.key) :
    a.Before b := by
  rcases notAfter_iff.1 h with hearlier | ⟨hsame, hsequence⟩
  · exact Or.inl hearlier
  · have htime : a.raisedAt = b.raisedAt := Instant.eq_of_position_eq hsame
    have hne : a.sequence ≠ b.sequence := fun heq => hkey (Prod.ext htime heq)
    exact Or.inr ⟨htime, by omega⟩

theorem Before.asymm {a b : RaisedEvent ε} (hab : a.Before b) : ¬ b.Before a := by
  intro hba
  rcases hab with hearlier | ⟨hsame, hsmaller⟩ <;> rcases hba with hlater | ⟨heq, hgreater⟩
  · exact Int.lt_asymm hearlier hlater
  · exact Int.lt_irrefl _ (heq ▸ hearlier)
  · exact Int.lt_irrefl _ (hsame ▸ hlater)
  · omega

end RaisedEvent

theorem raiseOrder_perm (events : List (RaisedEvent ε)) : (raiseOrder events).Perm events :=
  List.mergeSort_perm events _

theorem raiseOrder_sorted {events : List (RaisedEvent ε)}
    (h : (events.map RaisedEvent.key).Nodup) : (raiseOrder events).Pairwise RaisedEvent.Before := by
  have hkeys : ((raiseOrder events).map RaisedEvent.key).Nodup :=
    ((raiseOrder_perm events).map _).nodup_iff.2 h
  have hsorted : (raiseOrder events).Pairwise fun a b => a.notAfter b = true :=
    List.pairwise_mergeSort RaisedEvent.notAfter_trans RaisedEvent.notAfter_total events
  exact hsorted.imp₂ (fun _ _ => RaisedEvent.before_of_notAfter) (List.pairwise_map.1 hkeys)

/-- There is one way to put events with different keys in order. -/
theorem raiseOrder_eq {events sorted : List (RaisedEvent ε)} (h : (events.map RaisedEvent.key).Nodup)
    (hperm : sorted.Perm events) (hsorted : sorted.Pairwise RaisedEvent.Before) :
    raiseOrder events = sorted :=
  List.Perm.eq_of_pairwise (fun _ _ _ _ hab hba => absurd hba hab.asymm) (raiseOrder_sorted h) hsorted
    ((raiseOrder_perm events).trans hperm.symm)

theorem raiseOrder_eq_of_perm {events others : List (RaisedEvent ε)}
    (h : (events.map RaisedEvent.key).Nodup) (hperm : others.Perm events) :
    raiseOrder others = raiseOrder events := by
  have hothers : (others.map RaisedEvent.key).Nodup := (hperm.map _).nodup_iff.2 h
  exact raiseOrder_eq hothers ((raiseOrder_perm events).trans hperm.symm) (raiseOrder_sorted h)

inductive RecorderUse (ε : Type) where
  | record (event : ε) (now : Instant)
  | take

namespace EventRecorder

/-- The batches that are taken from a recorder in the course of some uses, and the recorder after
them. -/
def use : EventRecorder ε → List (RecorderUse ε) → List (List (RaisedEvent ε)) × EventRecorder ε
  | recorder, [] => ([], recorder)
  | recorder, .record event now :: rest => (recorder.record event now).use rest
  | recorder, .take :: rest =>
      (recorder.take.1 :: (recorder.take.2.use rest).1, (recorder.take.2.use rest).2)

/-- The events that are recorded, numbered from `first` on. -/
def recordedFrom : Nat → List (RecorderUse ε) → List (RaisedEvent ε)
  | _, [] => []
  | first, .record event now :: rest => ⟨event, now, first⟩ :: recordedFrom (first + 1) rest
  | first, .take :: rest => recordedFrom first rest

/-- All that was taken, and what may still be taken. -/
def yield (uses : List (RecorderUse ε)) : List (RaisedEvent ε) :=
  (empty.use uses).1.flatten ++ (empty.use uses).2.pending

theorem use_all (uses : List (RecorderUse ε)) (recorder : EventRecorder ε) :
    (recorder.use uses).1.flatten ++ (recorder.use uses).2.pending =
      recorder.pending ++ recordedFrom recorder.nextSequence uses := by
  induction uses generalizing recorder with
  | nil => exact (List.append_nil _).symm
  | cons first rest ih =>
      cases first with
      | record event now =>
          refine (ih _).trans ?_
          exact List.append_assoc _ [_] _
      | take =>
          simp only [use, List.flatten_cons, List.append_assoc, ih]
          rfl

theorem yield_eq (uses : List (RecorderUse ε)) : yield uses = recordedFrom 0 uses :=
  use_all uses empty

theorem recordedFrom_ge {first : Nat} {uses : List (RecorderUse ε)} {raised : RaisedEvent ε}
    (h : raised ∈ recordedFrom first uses) : first ≤ raised.sequence := by
  induction uses generalizing first with
  | nil => cases h
  | cons head rest ih =>
      cases head with
      | record event now =>
          rcases List.mem_cons.1 h with rfl | hrest
          · exact Nat.le_refl first
          · exact Nat.le_of_succ_le (ih hrest)
      | take => exact ih h

theorem recordedFrom_increasing (first : Nat) (uses : List (RecorderUse ε)) :
    (recordedFrom first uses).Pairwise fun a b => a.sequence < b.sequence := by
  induction uses generalizing first with
  | nil => exact List.Pairwise.nil
  | cons head rest ih =>
      cases head with
      | record event now => exact List.pairwise_cons.2 ⟨fun _ => recordedFrom_ge, ih (first + 1)⟩
      | take => exact ih first

theorem distinct_of_increasing {events : List (RaisedEvent ε)}
    (h : events.Pairwise fun a b => a.sequence < b.sequence) :
    (events.map RaisedEvent.key).Nodup := by
  refine List.pairwise_map.2 (h.imp fun hless heq => ?_)
  exact absurd (congrArg Prod.snd heq) (Nat.ne_of_lt hless)

end EventRecorder

namespace Reaction

inductive Item (κ ε : Type) where
  /-- Put an event into an envelope; from then on it is the event at hand. -/
  | wrap (raised : RaisedEvent ε)
  /-- Run a reaction to the event at hand. -/
  | react (reaction : Reaction κ ε)

/-- What there is to do: event by event, and for each event reaction by reaction. -/
def agenda (reactions : List (Reaction κ ε)) (events : List (RaisedEvent ε)) : List (Item κ ε) :=
  events.flatMap fun raised => .wrap raised :: reactions.map .react

/-- Where a dispatch stands: the event at hand in its envelope, the transaction, and the
surroundings. -/
structure Stand (ε σ : Type) where
  hand : Option (Envelope ε)
  tx : Transaction
  state : σ

variable [DomainEvent ε]

/-- What doing an item comes to.  An event is wrapped in the context of the dispatch.  A reaction adds
rows that continue that context's chain and name the envelope of the event as their cause; if it fails,
its failure is reported under its name. -/
inductive Does (answer : (call : Call κ) → σ → call.Answer × σ) (ctx : Context) :
    Stand ε σ → Item κ ε → Except MessagingError Unit → Stand ε σ → Prop where
  | wrapped {hand : Option (Envelope ε)} {tx : Transaction} {state after : σ}
      {raised : RaisedEvent ε} {envelope : Envelope ε}
      (hrun : Program.run answer (Envelope.wrapEvent raised.event ctx) state = (envelope, after))
      (hmessage : envelope.message = raised.event)
      (hcorrelation : envelope.metadata.correlationId = ctx.correlationId)
      (hcausation : envelope.metadata.causationId = ctx.causationId) :
      Does answer ctx ⟨hand, tx, state⟩ (.wrap raised) (.ok ()) ⟨some envelope, tx, after⟩
  | reacted {envelope : Envelope ε} {tx written : Transaction} {state after : σ}
      {reaction : Reaction κ ε} {outcome : Except MessagingError Unit} {staged : List Row}
      (hrun : Program.run answer
        ((reaction.run (Context.causedBy envelope.metadata) envelope).inside tx) state =
          ((outcome, written), after))
      (hadded : written.rows = tx.rows ++ staged)
      (hstaged : ∀ row ∈ staged,
        row.IsUnder ⟨ctx.correlationId, some envelope.metadata.messageId⟩) :
      Does answer ctx ⟨some envelope, tx, state⟩ (.react reaction)
        (outcome.mapError fun error =>
          .reaction reaction.name (DomainEvent.eventType envelope.message) error.message)
        ⟨some envelope, written, after⟩

/-- Items are done in order until one fails. -/
inductive WorksOff (answer : (call : Call κ) → σ → call.Answer × σ) (ctx : Context) :
    Stand ε σ → List (Item κ ε) → Except MessagingError Unit → Stand ε σ → Prop where
  | finished (stand : Stand ε σ) : WorksOff answer ctx stand [] (.ok ()) stand
  | next {stand middle last : Stand ε σ} {item : Item κ ε} {rest : List (Item κ ε)}
      {outcome : Except MessagingError Unit} (hdoes : Does answer ctx stand item (.ok ()) middle)
      (hrest : WorksOff answer ctx middle rest outcome last) :
      WorksOff answer ctx stand (item :: rest) outcome last
  | failed {stand last : Stand ε σ} {item : Item κ ε} {rest : List (Item κ ε)}
      {error : MessagingError} (hdoes : Does answer ctx stand item (.error error) last) :
      WorksOff answer ctx stand (item :: rest) (.error error) last

section worksOff

variable {answer : (call : Call κ) → σ → call.Answer × σ} {ctx : Context}
  {stand middle last : Stand ε σ} {first second : List (Item κ ε)}

theorem WorksOff.append {outcome : Except MessagingError Unit}
    (hfirst : WorksOff answer ctx stand first (.ok ()) middle)
    (hsecond : WorksOff answer ctx middle second outcome last) :
    WorksOff answer ctx stand (first ++ second) outcome last := by
  generalize hdone : Except.ok () = done at hfirst
  induction hfirst with
  | finished => exact hsecond
  | next hdoes _ ih => exact .next hdoes (ih hsecond hdone)
  | failed => cases hdone

theorem WorksOff.append_failed {error : MessagingError}
    (h : WorksOff answer ctx stand first (.error error) last) :
    WorksOff answer ctx stand (first ++ second) (.error error) last := by
  generalize hdone : Except.error error = done at h ⊢
  induction h with
  | finished => cases hdone
  | next hdoes _ ih => exact .next hdoes (ih hdone)
  | failed hdoes => exact .failed hdoes

end worksOff

section runs

variable {answer : (call : Call κ) → σ → call.Answer × σ} {ctx : Context} {tx : Transaction}
  {state : σ} {reactions : List (Reaction κ ε)}

theorem run_wrapEvent (answer : (call : Call κ) → σ → call.Answer × σ) (event : ε) (ctx : Context)
    (state : σ) : ∃ envelope after,
      Program.run answer (Envelope.wrapEvent event ctx) state = (envelope, after) ∧
        envelope.message = event ∧ envelope.metadata.correlationId = ctx.correlationId ∧
          envelope.metadata.causationId = ctx.causationId :=
  ⟨_, _, rfl, rfl, rfl, rfl⟩

variable (hanswers : ∀ (call : Call κ) (state : σ), call.Plausible (answer call state).1)
include hanswers

theorem does_react {reaction : Reaction κ ε} (h : reaction.StagesInContext) {envelope : Envelope ε}
    (hcorrelation : envelope.metadata.correlationId = ctx.correlationId) (tx : Transaction)
    (state : σ) :
    ((reaction.react (DomainEvent.eventType envelope.message) (Context.causedBy envelope.metadata)
      envelope).inside tx).Ends answer state fun result after =>
        Does answer ctx ⟨some envelope, tx, state⟩ (.react reaction) result.1
          ⟨some envelope, result.2, after⟩ := by
  refine Program.Ends.bind ?_
  have hadds := (h (Context.causedBy envelope.metadata) envelope).adds hanswers tx state
  unfold Program.Ends at hadds ⊢
  generalize hrun : Program.run answer
    ((reaction.run (Context.causedBy envelope.metadata) envelope).inside tx) state = result at hadds ⊢
  obtain ⟨⟨outcome, written⟩, after⟩ := result
  obtain ⟨staged, hadded, hstaged⟩ := hadds
  have hunder : ∀ row ∈ staged,
      row.IsUnder ⟨ctx.correlationId, some envelope.metadata.messageId⟩ := by
    rw [← hcorrelation]
    exact hstaged
  have hdoes := Does.reacted hrun hadded hunder
  cases outcome with
  | ok done => exact hdoes
  | error error => exact hdoes

/-- The reactions to one event. -/
theorem worksOff_reactAll (h : ∀ reaction ∈ reactions, reaction.StagesInContext)
    {envelope : Envelope ε} (hcorrelation : envelope.metadata.correlationId = ctx.correlationId)
    (tx : Transaction) (state : σ) :
    ((reactAll (DomainEvent.eventType envelope.message) (Context.causedBy envelope.metadata) envelope
      reactions).inside tx).Ends answer state fun result after =>
        WorksOff answer ctx ⟨some envelope, tx, state⟩ (reactions.map .react) result.1
          ⟨some envelope, result.2, after⟩ := by
  induction reactions generalizing tx state with
  | nil => exact .finished _
  | cons reaction rest ih =>
      obtain ⟨hreaction, hrest⟩ := List.forall_mem_cons.1 h
      unfold reactAll
      refine Work.ends_bind ((does_react hanswers hreaction hcorrelation tx state).mono ?_)
      intro result after hdoes
      obtain ⟨outcome, written⟩ := result
      cases outcome with
      | ok done => exact (ih hrest written after).mono fun _ _ => .next hdoes
      | error error => exact .failed hdoes

/-- Events in the order in which they are given. -/
theorem worksOff_dispatchInOrder (h : ∀ reaction ∈ reactions, reaction.StagesInContext)
    (events : List (RaisedEvent ε)) (hand : Option (Envelope ε)) (tx : Transaction) (state : σ) :
    ((dispatchInOrder reactions ctx events).inside tx).Ends answer state fun result after =>
      ∃ last, WorksOff answer ctx ⟨hand, tx, state⟩ (agenda reactions events) result.1
        ⟨last, result.2, after⟩ := by
  induction events generalizing hand tx state with
  | nil => exact ⟨hand, .finished _⟩
  | cons raised rest ih =>
      unfold dispatchInOrder
      obtain ⟨envelope, wrapped, hwrap, hmessage, hcorrelation, hcausation⟩ :=
        run_wrapEvent answer raised.event ctx state
      refine Work.ends_lift (Program.Ends.of_run hwrap ?_)
      rw [← hmessage]
      refine Work.ends_bind ((worksOff_reactAll hanswers h hcorrelation tx wrapped).mono ?_)
      intro result after hreacted
      have hdoes : Does answer ctx ⟨hand, tx, state⟩ (.wrap raised) (.ok ())
          ⟨some envelope, tx, wrapped⟩ := .wrapped hwrap hmessage hcorrelation hcausation
      have hevent := WorksOff.next hdoes hreacted
      obtain ⟨outcome, written⟩ := result
      cases outcome with
      | ok done =>
          refine (ih (some envelope) written after).mono fun result last hrest => ?_
          obtain ⟨hand, hrest⟩ := hrest
          exact ⟨hand, hevent.append hrest⟩
      | error error => exact ⟨_, hevent.append_failed⟩

theorem ends_dispatch (h : ∀ reaction ∈ reactions, reaction.StagesInContext)
    (events : List (RaisedEvent ε)) (tx : Transaction) (state : σ) :
    ((dispatch reactions ctx events).inside tx).Ends answer state fun result after =>
      ∃ outcome hand, result.1 = outcome.map (fun _ => events.length) ∧
        WorksOff answer ctx ⟨none, tx, state⟩ (agenda reactions (raiseOrder events)) outcome
          ⟨hand, result.2, after⟩ := by
  unfold dispatch
  refine Work.ends_bind ((worksOff_dispatchInOrder hanswers h _ none tx state).mono ?_)
  rintro ⟨outcome, written⟩ after ⟨hand, hdone⟩
  cases outcome with
  | ok done => exact ⟨.ok done, hand, rfl, hdone⟩
  | error error => exact ⟨.error error, hand, rfl, hdone⟩

end runs

end Reaction

theorem EventRecorder.distinct_of_yield {uses : List (RecorderUse ε)}
    {events : List (RaisedEvent ε)} (h : events.Subperm (EventRecorder.yield uses)) :
    (events.map RaisedEvent.key).Nodup := by
  rw [yield_eq] at h
  obtain ⟨same, hsame, hsublist⟩ := h
  refine ((hsame.map RaisedEvent.key).nodup_iff).1 ?_
  exact distinct_of_increasing ((recordedFrom_increasing 0 uses).sublist hsublist)

/-- What is taken from a recorder is all that was recorded, each event once, numbered in the order of
recording, so that no two events have the same key, however they are picked and mixed.  Events with
different keys are dispatched in the order of their keys, and how they are given does not show: not in
what the reactions do, nor in the outcome, the transaction or anything else that a run leaves behind.
The run works off the agenda, event by event and reaction by reaction, up to the first failure. -/
theorem dispatch_by_raise_order [DomainEvent ε] :
    (∀ uses : List (RecorderUse ε),
      EventRecorder.yield uses = EventRecorder.recordedFrom 0 uses ∧
        (EventRecorder.yield uses).Pairwise (fun a b => a.sequence < b.sequence) ∧
        ∀ events : List (RaisedEvent ε), events.Subperm (EventRecorder.yield uses) →
          (events.map RaisedEvent.key).Nodup) ∧
    ∀ events : List (RaisedEvent ε), (events.map RaisedEvent.key).Nodup →
      (raiseOrder events).Perm events ∧ (raiseOrder events).Pairwise RaisedEvent.Before ∧
      ∀ (reactions : List (Reaction κ ε)) (ctx : Context),
        (∀ others, others.Perm events →
          Reaction.dispatch reactions ctx others = Reaction.dispatch reactions ctx events) ∧
        ((∀ reaction ∈ reactions, reaction.StagesInContext) →
          ∀ (σ : Type) (answer : (call : Call κ) → σ → call.Answer × σ),
            (∀ (call : Call κ) (state : σ), call.Plausible (answer call state).1) →
            ∀ (tx : Transaction) (state : σ), ∃ outcome last,
              Reaction.WorksOff answer ctx ⟨none, tx, state⟩
                  (Reaction.agenda reactions (raiseOrder events)) outcome last ∧
                ∀ others, others.Perm events →
                  Program.run answer ((Reaction.dispatch reactions ctx others).inside tx) state =
                    ((outcome.map fun _ => events.length, last.tx), last.state)) := by
  refine ⟨fun uses => ?_, fun events hdistinct => ?_⟩
  · refine ⟨EventRecorder.yield_eq uses, ?_, fun events => EventRecorder.distinct_of_yield⟩
    rw [EventRecorder.yield_eq]
    exact EventRecorder.recordedFrom_increasing 0 uses
  · refine ⟨raiseOrder_perm events, raiseOrder_sorted hdistinct, fun reactions ctx => ?_⟩
    have hsame : ∀ others : List (RaisedEvent ε), others.Perm events →
        Reaction.dispatch reactions ctx others = Reaction.dispatch reactions ctx events := by
      intro others hperm
      unfold Reaction.dispatch
      rw [raiseOrder_eq_of_perm hdistinct hperm, hperm.length_eq]
    refine ⟨hsame, fun hreactions σ answer hanswers tx state => ?_⟩
    obtain ⟨outcome, hand, houtcome, hdone⟩ :=
      Reaction.ends_dispatch hanswers hreactions events tx state
    refine ⟨outcome, _, hdone, fun others hperm => ?_⟩
    rw [hsame others hperm, ← houtcome]

/-- A store that does as it is asked, a clock that stands still, and a source of identifiers that counts,
for use in examples. -/
def counting (call : Call Unit) (state : Store × Nat) : call.Answer × (Store × Nat) :=
  let response := state.1.respond { clock := epoch, minted := Uuid.ofNat state.2 } call
  (response.1, (response.2, state.2 + 1))

/-- An order is cancelled as soon as it is placed; the later event comes first. -/
def hastyEvents : List (RaisedEvent OrderEvent) :=
  [⟨.cancelled ⟨7⟩ "changed mind", epoch, 1⟩, ⟨.placed ⟨7⟩ "ada" 100, epoch, 0⟩]

def hastyRun (reactions : List (Reaction Unit OrderEvent)) (events : List (RaisedEvent OrderEvent)) :
    (Except MessagingError Nat × Transaction) × (Store × Nat) :=
  Program.run counting
    ((Reaction.dispatch reactions (.ofCorrelation ⟨Uuid.ofNat 0⟩) events).inside Transaction.empty)
    (Store.empty, 1)

/-- Given the wrong way round, the events are dispatched in the order of their sequence numbers. -/
theorem hastyEvents_dispatched :
    (hastyEvents.map RaisedEvent.key).Nodup ∧
      (∀ reaction ∈ (OrderReaction.all : List (Reaction Unit OrderEvent)), reaction.StagesInContext) ∧
      (∀ (call : Call Unit) state, call.Plausible (counting call state).1) ∧
      ∃ last, Reaction.WorksOff counting (.ofCorrelation ⟨Uuid.ofNat 0⟩)
          ⟨none, Transaction.empty, (Store.empty, 1)⟩
          (Reaction.agenda OrderReaction.all (raiseOrder hastyEvents)) (.ok ()) last ∧
        hastyRun OrderReaction.all hastyEvents.reverse = ((.ok 2, last.tx), last.state) ∧
        last.tx.rows.map (·.dataType) =
          ["OrderPlacedV1", "UpdateOrderReadModel", "OrderCancelledV1", "UpdateOrderReadModel"] := by
  have hdistinct : (hastyEvents.map RaisedEvent.key).Nodup := by decide
  have hanswers : ∀ (call : Call Unit) state, call.Plausible (counting call state).1 :=
    fun call state => Store.respond_plausible state.1 _ call
  have horder : raiseOrder hastyEvents = hastyEvents.reverse :=
    raiseOrder_eq hdistinct (List.reverse_perm _) (List.pairwise_pair.2 (Or.inr ⟨rfl, by decide⟩))
  have hcount : (hastyRun OrderReaction.all hastyEvents).1.1 = .ok 2 := by
    unfold hastyRun Reaction.dispatch
    rw [horder]
    decide +kernel
  have hrows : (hastyRun OrderReaction.all hastyEvents).1.2.rows.map (·.dataType) =
      ["OrderPlacedV1", "UpdateOrderReadModel", "OrderCancelledV1", "UpdateOrderReadModel"] := by
    unfold hastyRun Reaction.dispatch
    rw [horder]
    decide +kernel
  obtain ⟨_, _, hruns⟩ := dispatch_by_raise_order.2 hastyEvents hdistinct
  obtain ⟨outcome, last, hdone, hsame⟩ :=
    (hruns OrderReaction.all (.ofCorrelation ⟨Uuid.ofNat 0⟩)).2 OrderReaction.all_inContext _ counting
      hanswers Transaction.empty (Store.empty, 1)
  have hgiven : hastyRun OrderReaction.all hastyEvents = _ := hsame hastyEvents (List.Perm.refl _)
  rw [hgiven] at hcount hrows
  cases outcome with
  | error error => cases hcount
  | ok done =>
      exact ⟨hdistinct, OrderReaction.all_inContext, hanswers, last, hdone,
        hsame _ (List.reverse_perm _), hrows⟩

end Courier
