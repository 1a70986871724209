import Courier.Handling.Inbox
import Courier.Proofs.Interleaving.Transactions
import Courier.Proofs.Publishing.Ticks
/-
A call of the inbox on its own.  Whatever it is answered, it stages the row of its envelope in a fresh
transaction, commits nothing but that row, and tells of the first delivery exactly when it has
committed.
-/
namespace Courier

variable {κ : Type}

/-- What goes on around the inbox: envelopes come in, as they are or in their wire form, and publishers
tick. -/
inductive InboxTask (κ : Type) where
  | receive (registry : Registry κ) (raw : RawEnvelope)
  | receiveOctets (registry : Registry κ) (octets : List UInt8)
  | tick (shift : Shift κ)

namespace InboxTask

inductive Outcome where
  | received (outcome : Except MessagingError Received)
  | report (outcome : Except PublisherError TickReport)

def program : InboxTask κ → Program κ Outcome
  | .receive registry raw => .received <$> (Inbox.receive registry raw).run
  | .receiveOctets registry octets => .received <$> (Inbox.receiveOctets registry octets).run
  | .tick shift => .report <$> (shift.publisher.tickAt shift.now).run

def envelope? : InboxTask κ → Option RawEnvelope
  | .receive _ raw => some raw
  | .receiveOctets _ octets => (RawEnvelope.ofOctets octets).toOption
  | .tick _ => none

def messageId? (task : InboxTask κ) : Option MessageId :=
  task.envelope?.map (·.metadata.messageId)

def draft? (task : InboxTask κ) : Option Draft :=
  task.envelope?.bind fun raw => raw.typeName?.map (Staging.draftOf raw · .inbox)

def isTick : InboxTask κ → Bool
  | .tick _ => true
  | _ => false

/-- How far a call of the inbox has come. -/
inductive Phase where
  | start
  | staged (row : Row)
  | recorded (row : Row)
  /-- The store has answered that the message is there. -/
  | known (id : MessageId)
deriving DecidableEq

def Phase.recorded? : Phase → Option Row
  | .recorded row => some row
  | _ => none

def Phase.next : Phase → (call : Call κ) → call.Answer → Phase
  | .start, .stage _ _, Except.ok (_, row) => .staged row
  | .start, .stage _ draft, Except.error (.duplicate _ _) => .known draft.messageId
  | .staged row, .commit _, Except.ok _ => .recorded row
  | .staged row, .commit _, Except.error (.duplicate _ _) => .known row.messageId
  | phase, _, _ => phase

def allows (task : InboxTask κ) (phase : Phase) : Call κ → Prop
  | .begin => task.isTick = false ∧ phase = .start
  | .stage tx draft => phase = .start ∧ tx = Transaction.empty ∧ task.draft? = some draft
  | .commit tx => ∃ row, phase = .staged row ∧ tx = ⟨[row], []⟩ ∧ task.draft? = some row.draft
  | .count _ => task.isTick = true ∨ phase.recorded? = none
  | .due _ => task.isTick = true
  | .outgoing _ => task.isTick = true
  | .now => task.isTick = true
  | .swap _ => task.isTick = true
  | .publish _ _ => task.isTick = true
  | .handle _ => task.isTick = true
  | _ => False

def protocol (task : InboxTask κ) : Protocol κ Phase :=
  ⟨task.allows, Phase.next⟩

/-- A call of the inbox tells of the first delivery if it has recorded it, and of a second one if the
store has. -/
def Ends (task : InboxTask κ) (outcome : Except MessagingError Received) (phase : Phase) : Prop :=
  match outcome with
  | .ok (.recorded row) => phase = .recorded row
  | .ok (.duplicate id) => phase = .known id ∧ task.messageId? = some id
  | .error _ => phase.recorded? = none

variable {task : InboxTask κ} {raw : RawEnvelope} {phase : Phase}

theorem messageId_of_draft {draft : Draft} (hdraft : task.draft? = some draft) :
    task.messageId? = some draft.messageId := by
  obtain ⟨raw, henvelope, hraw⟩ := Option.bind_eq_some_iff.1 hdraft
  obtain ⟨typeName, _, rfl⟩ := Option.map_eq_some_iff.1 hraw
  rw [messageId?, henvelope]
  rfl

theorem delivery_of_draft {draft : Draft} (hdraft : task.draft? = some draft) :
    draft.delivery = .inbox := by
  obtain ⟨raw, _, hraw⟩ := Option.bind_eq_some_iff.1 hdraft
  obtain ⟨typeName, _, rfl⟩ := Option.map_eq_some_iff.1 hraw
  rfl

/-- What has become of the row of an envelope once it was to be staged. -/
inductive Staged (task : InboxTask κ) : Except MessagingError Row × Transaction → Phase → Prop where
  | staged (row : Row) (hdraft : task.draft? = some row.draft) :
      Staged task (.ok row, ⟨[row], []⟩) (.staged row)
  | known (draft : Draft) (id : MessageId) (delivery : Delivery) (tx : Transaction)
      (hdraft : task.draft? = some draft) :
      Staged task (.error (.store (.duplicate id delivery)), tx) (.known draft.messageId)
  | failed (error : MessagingError) (tx : Transaction)
      (hother : ∀ id delivery, error ≠ .store (.duplicate id delivery)) :
      Staged task (.error error, tx) .start

theorem keeps_saveRaw (henvelope : task.envelope? = some raw) :
    Program.Keeps task.protocol task.Staged
      ((Staging.saveRaw raw .inbox : Work κ Row).inside Transaction.empty) .start := by
  unfold Staging.saveRaw
  cases htype : raw.typeName? with
  | none => exact Staged.failed _ _ fun _ _ h => nomatch h
  | some typeName =>
      have hdraft : task.draft? = some (Staging.draftOf raw typeName .inbox) := by
        rw [draft?, henvelope, Option.bind_some, htype]
        rfl
      refine ⟨⟨rfl, rfl, hdraft⟩, fun answer hplausible => ?_⟩
      match answer with
      | .ok (written, row) =>
          obtain ⟨⟨id, now, rfl⟩, rfl⟩ := hplausible
          exact ⟨Or.inr rfl, fun _ _ => Staged.staged _ hdraft⟩
      | .error (.duplicate _ _) => exact Staged.known _ _ _ _ hdraft
      | .error (.conflict _ _ _ _) => exact Staged.failed _ _ fun _ _ h => nomatch h
      | .error (.notFound _) => exact Staged.failed _ _ fun _ _ h => nomatch h
      | .error (.decode _) => exact Staged.failed _ _ fun _ _ h => nomatch h
      | .error (.backend _) => exact Staged.failed _ _ fun _ _ h => nomatch h

theorem keeps_duplicate {id : MessageId} (hid : task.messageId? = some id) :
    Program.Keeps task.protocol task.Ends (Inbox.duplicate id) (.known id) :=
  ⟨Or.inr rfl, fun _ _ => ⟨rfl, hid⟩⟩

theorem keeps_receive (henvelope : task.envelope? = some raw) (registry : Registry κ)
    (htask : task.isTick = false) :
    Program.Keeps task.protocol task.Ends (Inbox.receive registry raw) .start := by
  have hid : task.messageId? = some raw.metadata.messageId := by
    rw [messageId?, henvelope]
    rfl
  refine Program.Keeps.andThen (Program.Keeps.ofExcept ⟨fun _ _ => ?_, fun _ _ => rfl⟩)
  refine Program.Keeps.andThen (Program.Keeps.calling ⟨⟨htask, rfl⟩, fun answer hplausible => ?_⟩)
  match answer with
  | .error error => exact Program.Keeps.failed rfl
  | .ok tx =>
      obtain rfl : tx = Transaction.empty := hplausible
      refine Program.Keeps.succeeded (Program.Keeps.lifting
        ((keeps_saveRaw henvelope).mono fun result phase hstaged => ?_))
      cases hstaged with
      | staged row hdraft =>
          have hsame : row.messageId = raw.metadata.messageId :=
            Option.some.inj ((messageId_of_draft hdraft).symm.trans hid)
          refine Program.Keeps.lifting ⟨⟨row, rfl, rfl, hdraft⟩, fun answer _ => ?_⟩
          rw [← hsame] at hid ⊢
          match answer with
          | .ok _ => exact rfl
          | .error (.duplicate _ _) => exact keeps_duplicate hid
          | .error (.conflict _ _ _ _) => exact rfl
          | .error (.notFound _) => exact rfl
          | .error (.decode _) => exact rfl
          | .error (.backend _) => exact rfl
      | known draft id delivery tx hdraft =>
          have hsame : draft.messageId = raw.metadata.messageId :=
            Option.some.inj ((messageId_of_draft hdraft).symm.trans hid)
          rw [hsame]
          exact keeps_duplicate hid
      | failed error tx hother =>
          dsimp only
          split
          · rename_i heq
            cases heq
            exact absurd rfl (hother _ _)
          · exact rfl
          · rename_i heq
            cases heq

theorem keeps_receiveOctets (registry : Registry κ) (octets : List UInt8) :
    Program.Keeps (.receiveOctets registry octets : InboxTask κ).protocol
      (.receiveOctets registry octets : InboxTask κ).Ends (Inbox.receiveOctets registry octets)
      .start := by
  refine Program.Keeps.andThen (Program.Keeps.ofExcept ⟨fun raw hraw => ?_, fun _ _ => rfl⟩)
  have henvelope : (receiveOctets registry octets).envelope? = some raw :=
    congrArg Except.toOption hraw
  exact keeps_receive henvelope registry rfl

/-- A tick has no business in transactions. -/
theorem keeps_tick (shift : Shift κ) :
    Program.Keeps (InboxTask.tick shift).protocol (fun _ _ => True)
      (shift.publisher.tickAt shift.now) .start := by
  refine (Publisher.keeps_tick shift).elsewhere (fun phase call hallows place => ?_) Phase.start
  cases call with
  | due query => rfl
  | outgoing id => rfl
  | now => rfl
  | count sample => exact Or.inl rfl
  | swap change => rfl
  | publish routingKey envelope => rfl
  | handle command => rfl
  | _ => exact hallows.elim

def ends (task : InboxTask κ) : Outcome → Phase → Prop
  | .received outcome, phase => task.isTick = false ∧ task.Ends outcome phase
  | .report _, _ => task.isTick = true

theorem keeps_program (task : InboxTask κ) :
    task.program.Keeps task.protocol task.ends .start := by
  cases task with
  | receive registry raw =>
      exact Program.Keeps.bind ((keeps_receive rfl registry rfl).mono fun _ _ h => ⟨rfl, h⟩)
  | receiveOctets registry octets =>
      exact Program.Keeps.bind ((keeps_receiveOctets registry octets).mono fun _ _ h => ⟨rfl, h⟩)
  | tick shift => exact Program.Keeps.bind ((keeps_tick shift).mono fun _ _ _ => rfl)

end InboxTask

end Courier
