import Courier.Proofs.Envelope.Wire
import Courier.Proofs.Interleaving.Drafts
import Courier.Proofs.Publishing.InTurn
import Courier.Publishing.MemoryBus
import Mathlib.Data.List.Forall2
import Mathlib.Data.List.Nodup
/-
Publications.  A memory bus keeps exactly what it was handed and has taken over.  Where messages are
staged as envelopes and no claim is outlived, it holds one entry for each outgoing row that is
processed: the envelope of the row, under the routing key of the row's type.
-/
namespace Courier

variable {κ τ ρ : Type}

def Call.published? : (call : Call κ) → call.Answer → Option Published
  | .publish routingKey envelope, Except.ok _ => some ⟨routingKey, envelope⟩
  | _, _ => none

def Moment.published? (moment : Moment κ τ) : Option Published :=
  moment.call.published? moment.answer

def publications (history : List (Moment κ τ)) : List Published :=
  history.filterMap Moment.published?

theorem publications_cons (moment : Moment κ τ) (past : List (Moment κ τ)) :
    publications (moment :: past) = moment.published?.toList ++ publications past := by
  unfold publications
  cases h : moment.published? with
  | none => exact List.filterMap_cons_none h
  | some entry => exact List.filterMap_cons_some h

/-- A memory bus that has answered every publication of a history.  It may have been told to fail at
any time. -/
inductive MemoryBus.Serves : List (Moment κ τ) → MemoryBus → Prop where
  | start : Serves [] MemoryBus.empty
  | told {history : List (Moment κ τ)} {bus : MemoryBus} (h : Serves history bus)
      (failuresLeft : Nat) (unavailable : Bool) :
      Serves history { bus with failuresLeft := failuresLeft, unavailable := unavailable }
  | published {past : List (Moment κ τ)} {bus : MemoryBus} (h : Serves past bus)
      (worker : Option (Worker τ)) (routingKey : String) (envelope : RawEnvelope)
      (before after : Store) :
      Serves (⟨worker, .publish routingKey envelope, (bus.publish routingKey envelope).1, before,
        after⟩ :: past) (bus.publish routingKey envelope).2
  | other {past : List (Moment κ τ)} {bus : MemoryBus} (h : Serves past bus) (moment : Moment κ τ)
      (hother : ∀ routingKey envelope, moment.call ≠ .publish routingKey envelope) :
      Serves (moment :: past) bus

theorem Call.published?_of_ne {call : Call κ} (h : ∀ routingKey envelope, call ≠ .publish routingKey envelope)
    (answer : call.Answer) : call.published? answer = none := by
  cases call with
  | publish routingKey envelope => exact absurd rfl (h routingKey envelope)
  | _ => rfl

theorem Moment.published?_of_publish {moment : Moment κ τ} {routingKey : String}
    {envelope : RawEnvelope} (hcall : moment.call = .publish routingKey envelope) :
    moment.published? = if moment.delivers then some ⟨routingKey, envelope⟩ else none := by
  obtain ⟨worker, call, answer, before, after⟩ := moment
  change call = _ at hcall
  subst hcall
  cases answer with
  | ok value => rfl
  | error error => rfl

/-- A memory bus keeps what it has taken over, and nothing else. -/
theorem MemoryBus.Serves.published_eq {history : List (Moment κ τ)} {bus : MemoryBus}
    (h : bus.Serves history) : bus.published.reverse = publications history := by
  induction h with
  | start => rfl
  | told h failuresLeft unavailable ih => exact ih
  | @published past bus h worker routingKey envelope before after ih =>
      rw [publications_cons, ← ih]
      unfold MemoryBus.publish
      split
      · rfl
      · split
        · rfl
        · exact List.reverse_concat ..
  | @other past bus h moment hother ih =>
      have hnone : moment.published? = none := Call.published?_of_ne hother moment.answer
      rw [publications_cons, hnone, ih]
      rfl

/-- What is decoded of a row is the envelope that it stores, and names the row's type. -/
theorem Router.of_decode {router : Router κ} {row : Row} {envelope : RawEnvelope}
    (h : router.decode row = .ok envelope) :
    RawEnvelope.ofJson row.data = .ok envelope ∧ envelope.typeName? = some row.dataType := by
  unfold decode at h
  cases hread : RawEnvelope.ofJson row.data with
  | error error =>
      rw [hread] at h
      cases h
  | ok raw =>
      simp only [hread, bind, Except.bind] at h
      split at h
      · rename_i htype
        have hsame : raw = envelope := by
          split at h
          · split at h
            · cases h
            · exact Except.ok.inj h
          · exact Except.ok.inj h
        rw [← hsame]
        exact ⟨rfl, htype⟩
      · cases h

/-- Outgoing rows are handed to the external bus, and all others to the handler of their type. -/
theorem Shift.HandsOver.cases {shift : Shift κ} {row : Row} {call : Call κ}
    (h : shift.HandsOver row call) :
    ∃ envelope, RawEnvelope.ofJson row.data = .ok envelope ∧
      envelope.typeName? = some row.dataType ∧
      ((row.delivery = .outbox ∧
          call = .publish (shift.publisher.router.routingKey row.dataType) envelope) ∨
        row.delivery ≠ .outbox ∧ ∃ command,
          shift.publisher.router.registry.command envelope = .ok command ∧
            call = .handle command) := by
  obtain ⟨envelope, hdecode, next, hdeliver⟩ := h
  obtain ⟨hread, htype⟩ := Router.of_decode hdecode
  refine ⟨envelope, hread, htype, ?_⟩
  by_cases hdelivery : row.delivery = .outbox
  · rw [Router.deliver_outbox _ row envelope hdelivery] at hdeliver
    injection hdeliver with hcall _
    exact Or.inl ⟨hdelivery, hcall.symm⟩
  · rw [Router.deliver_inside _ row envelope hdelivery] at hdeliver
    rcases Registry.schedule_cases shift.publisher.router.registry envelope with
      ⟨error, _, hnone⟩ | ⟨command, hcommand, hask⟩
    · rw [hnone] at hdeliver
      cases hdeliver
    · rw [hask] at hdeliver
      injection hdeliver with hcall _
      exact Or.inr ⟨hdelivery, command, hcommand, hcall.symm⟩

section publishing

variable {eligible : PublisherSettings → Bool}

/-- A delivered row is in the store with the message that was delivered. -/
theorem delivered_committed (actions : List (Action κ (Shift κ)))
    (hkept : LeasesKept ((publishing κ eligible).world actions).history) {delivered : Row}
    (h : delivered ∈ deliveries ((publishing κ eligible).world actions).history) :
    ∃ row, ((publishing κ eligible).world actions).store.get? delivered.id = some row ∧
      row.draft = delivered.draft := by
  refine Rules.call_induction rfl (fun store _ history => LeasesKept history →
    ∀ delivered ∈ deliveries history, ∃ row, store.get? delivered.id = some row ∧
      row.draft = delivered.draft) ?_ ?_ actions hkept delivered h
  · intro _ delivered hdelivered
    cases hdelivered
  · intro earlier moment ih hmakes hkept delivered hdelivered
    have hthere : ∃ row, ((publishing κ eligible).world earlier).store.get? delivered.id = some row ∧
        row.draft = delivered.draft := by
      cases hover : moment.call.isHandOver with
      | true =>
          obtain ⟨worker, claimed, _, hclaimed, hmore⟩ := deliveries_of_handOver hmakes hover
          rw [hmore] at hdelivered
          split at hdelivered
          · rcases List.mem_cons.1 hdelivered with rfl | hold
            · exact ⟨delivered, held_current earlier hkept.1 (held_of_hold hclaimed), rfl⟩
            · exact ih hkept.1 delivered hold
          · exact ih hkept.1 delivered hdelivered
      | false =>
          rw [deliveries_of_other hover] at hdelivered
          exact ih hkept.1 delivered hdelivered
    obtain ⟨row, hrow, hdraft⟩ := hthere
    obtain ⟨after, hafter, heq | ⟨change, _, _, heq⟩⟩ := World.get?_after hmakes hrow
    · exact ⟨after, hafter, by rw [heq, hdraft]⟩
    · exact ⟨after, hafter, by rw [heq, Row.draft_apply, hdraft]⟩

/-- An entry of the bus carries the envelope of a row, under the routing key that one of the workers
has for the row's type. -/
structure Published.Carries (history : List (Moment κ (Shift κ))) (entry : Published) (row : Row) :
    Prop where
  envelope : RawEnvelope.ofJson row.data = .ok entry.envelope
  routingKey : ∃ moment ∈ history, ∃ worker, moment.worker = some worker ∧
    entry.routingKey = worker.task.publisher.router.routingKey row.dataType

theorem Published.Carries.later {history : List (Moment κ (Shift κ))} {entry : Published} {row : Row}
    (h : entry.Carries history row) (moment : Moment κ (Shift κ)) :
    entry.Carries (moment :: history) row := by
  obtain ⟨henvelope, made, hmade, hkey⟩ := h
  exact ⟨henvelope, made, List.mem_cons_of_mem _ hmade, hkey⟩

/-- Each publication is the delivery of one outgoing row, in the same order. -/
theorem publications_carry (actions : List (Action κ (Shift κ))) :
    List.Forall₂ (Published.Carries ((publishing κ eligible).world actions).history)
      (publications ((publishing κ eligible).world actions).history)
      ((deliveries ((publishing κ eligible).world actions).history).filter
        (·.delivery == .outbox)) := by
  refine Rules.call_induction rfl (fun _ _ history => List.Forall₂ (Published.Carries history)
    (publications history) ((deliveries history).filter (·.delivery == .outbox))) ?_ ?_ actions
  · exact .nil
  · intro earlier moment ih hmakes
    replace ih : List.Forall₂
        (Published.Carries (moment :: ((publishing κ eligible).world earlier).history))
        (publications ((publishing κ eligible).world earlier).history)
        ((deliveries ((publishing κ eligible).world earlier).history).filter
          (·.delivery == .outbox)) := ih.imp fun _ _ hcarries => hcarries.later moment
    cases hover : moment.call.isHandOver with
    | false =>
        have hnone : moment.published? = none := by
          refine Call.published?_of_ne (fun routingKey envelope hcall => ?_) moment.answer
          rw [hcall] at hover
          cases hover
        rw [deliveries_of_other hover, publications_cons, hnone]
        exact ih
    | true =>
        obtain ⟨worker, claimed, hworker, hclaimed, hhands⟩ := publishing_hands_over hmakes hover
        obtain ⟨same, row, hsame, hrow, hmore⟩ := deliveries_of_handOver hmakes hover
        obtain rfl := Option.some.inj (hworker.symm.trans hsame)
        obtain rfl := Hold.claimed.inj (hclaimed.symm.trans hrow)
        rw [hmore, publications_cons]
        obtain ⟨envelope, hread, _, ⟨hdelivery, hcall⟩ | ⟨hdelivery, command, _, hcall⟩⟩ := hhands.cases
        · rw [Moment.published?_of_publish hcall]
          cases hdelivers : moment.delivers with
          | false => exact ih
          | true =>
              have hentered : Published.Carries
                  (moment :: ((publishing κ eligible).world earlier).history)
                  ⟨worker.task.publisher.router.routingKey claimed.dataType, envelope⟩ claimed :=
                ⟨hread, moment, List.mem_cons_self .., worker, hworker, rfl⟩
              simp only [↓reduceIte, List.filter_cons, hdelivery, beq_self_eq_true]
              exact .cons hentered ih
        · have hnone : moment.published? = none := by
            refine Call.published?_of_ne (fun routingKey envelope hother => ?_) moment.answer
            rw [hcall] at hother
            cases hother
          have hinside : (claimed.delivery == .outbox) = false := beq_eq_false_iff_ne.2 hdelivery
          rw [hnone]
          cases hdelivers : moment.delivers with
          | false => exact ih
          | true =>
              simp only [↓reduceIte, List.filter_cons, hinside, Bool.false_eq_true]
              exact ih

theorem Published.Carries.of_draft {history : List (Moment κ (Shift κ))} {entry : Published}
    {delivered row : Row} (h : entry.Carries history delivered) (hdraft : row.draft = delivered.draft) :
    entry.Carries history row := by
  have hdata : row.data = delivered.data := congrArg Draft.data hdraft
  have htype : row.dataType = delivered.dataType := congrArg Draft.dataType hdraft
  constructor
  · rw [hdata]
    exact h.envelope
  · rw [htype]
    exact h.routingKey

/-- The outgoing deliveries, as the rows are by now, carry what was published. -/
theorem publications_committed (actions : List (Action κ (Shift κ)))
    (hkept : LeasesKept ((publishing κ eligible).world actions).history) :
    ∃ rows : List Row,
      rows.map (·.id) = ((deliveries ((publishing κ eligible).world actions).history).filter
        (·.delivery == .outbox)).map (·.id) ∧
      (∀ row ∈ rows, row ∈ ((publishing κ eligible).world actions).store.rows ∧
        row.delivery = .outbox) ∧
      List.Forall₂ (Published.Carries ((publishing κ eligible).world actions).history)
        (publications ((publishing κ eligible).world actions).history) rows := by
  have hcarry : List.Forall₂ (Published.Carries ((publishing κ eligible).world actions).history) _ _ :=
    publications_carry actions
  have hcommitted : ∀ delivered ∈ (deliveries ((publishing κ eligible).world actions).history).filter
      (·.delivery == .outbox), delivered.delivery = .outbox ∧
        ∃ row, ((publishing κ eligible).world actions).store.get? delivered.id = some row ∧
          row.draft = delivered.draft := by
    intro delivered hdelivered
    obtain ⟨hmem, houtbox⟩ := List.mem_filter.1 hdelivered
    exact ⟨eq_of_beq houtbox, delivered_committed actions hkept hmem⟩
  generalize (deliveries ((publishing κ eligible).world actions).history).filter _ = outgoing
    at hcarry hcommitted ⊢
  generalize publications ((publishing κ eligible).world actions).history = entries at hcarry ⊢
  induction hcarry with
  | nil => exact ⟨[], rfl, fun row hrow => (List.not_mem_nil hrow).elim, .nil⟩
  | @cons entry delivered entries rest hentry _ ih =>
      obtain ⟨hfirst, hrest⟩ := List.forall_mem_cons.1 hcommitted
      obtain ⟨houtbox, row, hrow, hdraft⟩ := hfirst
      obtain ⟨rows, hids, hthere, hrows⟩ := ih hrest
      obtain ⟨hmem, hid⟩ := Store.mem_of_get? hrow
      have hdelivery : row.delivery = .outbox := (congrArg Draft.delivery hdraft).trans houtbox
      refine ⟨row :: rows, ?_, ?_, .cons (hentry.of_draft hdraft) hrows⟩
      · rw [List.map_cons, List.map_cons, hids, hid]
      · exact List.forall_mem_cons.2 ⟨⟨hmem, hdelivery⟩, hthere⟩

/-- Between ticks exactly what was delivered is processed. -/
theorem processed_iff_delivered (actions : List (Action κ (Shift κ)))
    (hfaithful : ∀ moment ∈ ((publishing κ eligible).world actions).history, moment.Faithful)
    (hkept : LeasesKept ((publishing κ eligible).world actions).history)
    (hresting : ∀ number, ((publishing κ eligible).world actions).Resting number) {row : Row}
    (hrow : row ∈ ((publishing κ eligible).world actions).store.rows) :
    row.status = .processed ↔
      row.id ∈ (deliveries ((publishing κ eligible).world actions).history).map (·.id) := by
  have hdelivered := publishing_delivered actions hfaithful hkept
  have hdistinct := (World.sound (publishing κ eligible) actions).committed_distinct
  rw [List.mem_map]
  constructor
  · exact hdelivered.processed row hrow
  · rintro ⟨delivered, hmem, hid⟩
    rcases hdelivered.settled delivered hmem with ⟨after, hafter, hstatus⟩ | ⟨number, hhold⟩
    · rw [hid, (Store.get?_eq_some_iff hdistinct).2 ⟨hrow, rfl⟩] at hafter
      rw [Option.some.inj hafter]
      exact hstatus
    · rw [hold_of_resting (hresting number)] at hhold
      cases hhold

/-- Between ticks the outgoing rows that were delivered are those that are processed. -/
theorem outgoing_perm (actions : List (Action κ (Shift κ)))
    (hfaithful : ∀ moment ∈ ((publishing κ eligible).world actions).history, moment.Faithful)
    (hkept : LeasesKept ((publishing κ eligible).world actions).history)
    (hresting : ∀ number, ((publishing κ eligible).world actions).Resting number) {rows : List Row}
    (hnodup : rows.Nodup)
    (hids : rows.map (·.id) = ((deliveries ((publishing κ eligible).world actions).history).filter
      (·.delivery == .outbox)).map (·.id))
    (hcommitted : ∀ row ∈ rows, row ∈ ((publishing κ eligible).world actions).store.rows ∧
      row.delivery = .outbox) :
    rows.Perm (((publishing κ eligible).world actions).store.rows.filter fun row =>
      row.status == .processed && row.delivery == .outbox) := by
  have hdistinct := (World.sound (publishing κ eligible) actions).committed_distinct
  have hthere : (((publishing κ eligible).world actions).store.rows).Nodup :=
    hdistinct.imp fun hne heq => hne (congrArg Row.id heq)
  refine (List.perm_ext_iff_of_nodup hnodup (hthere.filter _)).2 fun row => ?_
  rw [List.mem_filter, Bool.and_eq_true, beq_iff_eq, beq_iff_eq]
  constructor
  · intro hrow
    obtain ⟨hmem, houtbox⟩ := hcommitted row hrow
    have hid : row.id ∈ rows.map (·.id) := List.mem_map_of_mem hrow
    rw [hids] at hid
    refine ⟨hmem, (processed_iff_delivered actions hfaithful hkept hresting hmem).2 ?_, houtbox⟩
    exact (List.filter_sublist.map _).subset hid
  · rintro ⟨hmem, hprocessed, houtbox⟩
    have hid := (processed_iff_delivered actions hfaithful hkept hresting hmem).1 hprocessed
    obtain ⟨delivered, hdelivered, hsame⟩ := List.mem_map.1 hid
    obtain ⟨found, hfound, hdraft⟩ := delivered_committed actions hkept hdelivered
    rw [hsame, (Store.get?_eq_some_iff hdistinct).2 ⟨hmem, rfl⟩] at hfound
    obtain rfl := Option.some.inj hfound
    have hdelivery : delivered.delivery = .outbox :=
      (congrArg Draft.delivery hdraft).symm.trans houtbox
    have hlisted : row.id ∈ rows.map (·.id) := by
      rw [hids, ← hsame]
      exact List.mem_map_of_mem (List.mem_filter.2 ⟨hdelivered, beq_iff_eq.2 hdelivery⟩)
    obtain ⟨listed, hlisted, heq⟩ := List.mem_map.1 hlisted
    rwa [← hdistinct.eq_of_id_eq (hcommitted listed hlisted).1 hmem heq]

end publishing

/-- Messages are staged as the library stages envelopes. -/
def Posted (history : List (Moment κ τ)) : Prop :=
  ∀ draft, StagedIn history draft → ∃ (raw : RawEnvelope) (typeName : String)
    (delivery : Delivery), raw.typeName? = some typeName ∧ draft = Staging.draftOf raw typeName delivery

/-- An entry of the bus is the one for a row: it has the envelope that the row stores, under the
routing key that one of the workers has for the row's type. -/
structure Published.IsFor (history : List (Moment κ (Shift κ))) (entry : Published) (row : Row) :
    Prop where
  envelope : row.data = RawEnvelope.toJson entry.envelope
  messageId : row.messageId = entry.envelope.metadata.messageId
  routingKey : ∃ moment ∈ history, ∃ worker, moment.worker = some worker ∧
    entry.routingKey = worker.task.publisher.router.routingKey row.dataType

theorem Published.Carries.isFor {history : List (Moment κ (Shift κ))} {entry : Published} {row : Row}
    (h : entry.Carries history row) (hposted : Posted history) (hstaged : StagedIn history row.draft) :
    entry.IsFor history row := by
  obtain ⟨raw, typeName, delivery, _, hdraft⟩ := hposted row.draft hstaged
  have hdata : row.data = RawEnvelope.toJson raw := congrArg Draft.data hdraft
  have hid : row.messageId = raw.metadata.messageId := congrArg Draft.messageId hdraft
  have hread := h.envelope
  rw [hdata, RawEnvelope.ofJson_toJson] at hread
  obtain rfl := Except.ok.inj hread
  exact ⟨hdata, hid, h.routingKey⟩

theorem messageIds_eq {history : List (Moment κ (Shift κ))} {entries : List Published}
    {rows : List Row} (h : List.Forall₂ (Published.IsFor history) entries rows) :
    entries.map (·.envelope.metadata.messageId) = rows.map (·.messageId) := by
  induction h with
  | nil => rfl
  | cons hentry _ ih => rw [List.map_cons, List.map_cons, ih, hentry.messageId]

/-- What can be told of the deliveries, and of a memory bus that took them, if no claim was
outlived. -/
structure World.Exact (world : World κ (Shift κ) ρ) : Prop where
  /-- Whatever is taken over is a row that its worker has claimed. -/
  claimed : ∀ later moment past, world.history = later ++ moment :: past →
    moment.delivers = true → ∃ worker row, moment.worker = some worker ∧
      worker.task.HandsOver row moment.call ∧
      deliveries (moment :: past) = row :: deliveries past
  once : ((deliveries world.history).map (·.id)).Nodup
  processed : (∀ number, world.Resting number) → ∀ row ∈ world.store.rows,
    row.status = .processed ↔ row.id ∈ (deliveries world.history).map (·.id)
  /-- Between ticks the bus holds one entry for each outgoing row that is processed, and no other. -/
  entries : (∀ number, world.Resting number) → ∀ bus : MemoryBus, bus.Serves world.history →
    ∃ rows, rows.Perm (world.store.rows.filter fun row =>
        row.status == .processed && row.delivery == .outbox) ∧
      List.Forall₂ (Published.IsFor world.history) bus.published rows
  messages : ∀ bus : MemoryBus, bus.Serves world.history →
    (bus.published.map (·.envelope.metadata.messageId)).Nodup

/-- A publication is the delivery of a claim. -/
theorem delivery_claimed {eligible : PublisherSettings → Bool} (actions : List (Action κ (Shift κ)))
    {later past : List (Moment κ (Shift κ))} {moment : Moment κ (Shift κ)}
    (hhistory : ((publishing κ eligible).world actions).history = later ++ moment :: past)
    (hdelivers : moment.delivers = true) :
    ∃ worker row, moment.worker = some worker ∧ worker.task.HandsOver row moment.call ∧
      deliveries (moment :: past) = row :: deliveries past := by
  obtain ⟨earlier, rfl, hmakes⟩ := World.made_earlier rfl actions hhistory
  have hover := Call.isHandOver_of_delivers hdelivers
  obtain ⟨worker, claimed, hworker, hclaimed, hhands⟩ := publishing_hands_over hmakes hover
  obtain ⟨same, row, hsame, hrow, hmore⟩ := deliveries_of_handOver hmakes hover
  obtain rfl := Option.some.inj (hworker.symm.trans hsame)
  obtain rfl := Hold.claimed.inj (hclaimed.symm.trans hrow)
  rw [if_pos hdelivers] at hmore
  exact ⟨worker, claimed, hworker, hhands, hmore⟩

/-- Rows that are sent the same way and are not the same carry different messages. -/
theorem messageIds_nodup {store : Store} {rows : List Row}
    (hdistinct : (store.rows.map Row.slot).Nodup) (hnodup : rows.Nodup)
    (hrows : ∀ row ∈ rows, row ∈ store.rows ∧ row.delivery = .outbox) :
    (rows.map (·.messageId)).Nodup := by
  refine hnodup.map_on fun a ha b hb hid => ?_
  refine List.inj_on_of_nodup_map hdistinct (hrows a ha).1 (hrows b hb).1 (Prod.ext hid ?_)
  exact (hrows a ha).2.trans (hrows b hb).2.symm

/-- Publishers that tick while others stage and commit envelopes, and while buses and handlers fail
as they like, deliver every row once at most, provided that the store does not fail and that no claim
is outlived.  That is so in particular when ticks run one after another. -/
theorem delivered_exactly (eligible : PublisherSettings → Bool) (actions : List (Action κ (Shift κ)))
    (hposted : Posted ((publishing κ eligible).faultless.world actions).history)
    (hkept : LeasesKept ((publishing κ eligible).faultless.world actions).history ∨
      (publishing κ eligible).faultless.InTurn actions) :
    ((publishing κ eligible).faultless.world actions).Exact := by
  replace hkept : LeasesKept ((publishing κ eligible).faultless.world actions).history :=
    hkept.elim id (leasesKept_of_inTurn actions)
  obtain ⟨⟨others, hothers⟩, hfaithful⟩ := (publishing κ eligible).faultless_world actions
  rw [hothers] at hposted hkept hfaithful ⊢
  have hdelivered := publishing_delivered others hfaithful hkept
  have hunrepeated : World.Unrepeated ((publishing κ eligible).world others).store _ :=
    World.unrepeated _ others
  obtain ⟨rows, hids, hcommitted, hcarry⟩ := publications_committed others hkept
  have hnodup : rows.Nodup := by
    refine List.Nodup.of_map (·.id) ?_
    rw [hids]
    exact hdelivered.once.sublist (List.filter_sublist.map _)
  have hfor : List.Forall₂
      (Published.IsFor ((publishing κ eligible).world others).history)
      (publications ((publishing κ eligible).world others).history) rows := by
    refine (List.forall₂_iff_zip.2 ⟨hcarry.length_eq, fun {entry row} hzip => ?_⟩)
    have hrow := (hcommitted row (List.of_mem_zip hzip).2).1
    exact (List.forall₂_zip hcarry hzip).isFor hposted 
      (World.known_stagedIn _ others (World.known_of_committed hrow))
  constructor
  · exact fun later moment past => delivery_claimed others
  · exact hdelivered.once
  · exact fun hresting row hrow => processed_iff_delivered others hfaithful hkept hresting hrow
  · intro hresting bus hserves
    have hperm := outgoing_perm others hfaithful hkept hresting hnodup hids hcommitted
    refine ⟨rows.reverse, (List.reverse_perm rows).trans hperm, List.forall₂_reverse_iff.1 ?_⟩
    rw [List.reverse_reverse, hserves.published_eq]
    exact hfor
  · intro bus hserves
    have hmessages := messageIds_nodup hunrepeated.committed hnodup hcommitted
    rw [← messageIds_eq hfor, ← hserves.published_eq, List.map_reverse] at hmessages
    exact List.nodup_reverse.1 hmessages

/-- A parcel is not taken over by the bus in one tick, and it is in the next one. -/
def parcelDelivered : List (Action Unit (Shift Unit)) :=
  ticking (epoch.after (Span.ofSeconds 1)) 1 7 (.ok ()) ++
    ticking epoch 0 7 (.error (.transportUnavailable "no route")) ++ posted 1 (parcel 1 none)

theorem parcel_delivered_exactly :
    Posted ((publishing Unit fun _ => true).faultless.world parcelDelivered).history ∧
      (publishing Unit fun _ => true).faultless.InTurn parcelDelivered ∧
      (∀ number, ((publishing Unit fun _ => true).faultless.world parcelDelivered).Resting number) ∧
      (publications
        ((publishing Unit fun _ => true).faultless.world parcelDelivered).history).length = 1 ∧
      ((publishing Unit fun _ => true).faultless.world parcelDelivered).Exact := by
  have hposted : Posted ((publishing Unit fun _ => true).faultless.world parcelDelivered).history := by
    have hdrafts : ∀ moment ∈
        ((publishing Unit fun _ => true).faultless.world parcelDelivered).history,
        moment.call.draft?.all (· == parcel 1 none) = true := by decide +kernel
    rintro draft ⟨moment, hmoment, hdraft⟩
    have heq := hdrafts moment hmoment
    rw [hdraft, Option.all_some, beq_iff_eq] at heq
    exact ⟨_, "Parcel", .outbox, by decide, heq⟩
  have hturn : (publishing Unit fun _ => true).faultless.InTurn parcelDelivered := by decide +kernel
  exact ⟨hposted, hturn, by decide +kernel, by decide +kernel,
    delivered_exactly (fun _ => true) parcelDelivered hposted (Or.inr hturn)⟩

end Courier
