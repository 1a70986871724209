import Courier.Proofs.Handling.Intake
import Courier.Proofs.Time.Order
/-
Envelopes that come in at the same time.  However often a message is delivered, and however the calls
of its deliveries interleave, one of them records it and all others are told that it is there.
-/
namespace Courier

variable {κ : Type}

/-- The inbox takes envelopes while publishers tick and others store messages of their own.  The store
may fail at any call, but a commit that takes effect is always answered as done, and no message is
called a duplicate unless it is there. -/
def receiving (κ : Type) : Rules κ (InboxTask κ) InboxTask.Outcome where
  admits _ _ := true
  program := InboxTask.program
  bystander
    | .stage _ draft => draft.delivery != .inbox
    | .commit tx => tx.rows.all (·.delivery != .inbox)
    | _ => true
  mishap
    | .commit _, .lost _ => false
    | _, .refused (.backend _) => true
    | _, .lost (.backend _) => true
    | _, _ => false
  clears := false

theorem receiving_followsTo :
    (receiving κ).FollowsTo InboxTask.protocol InboxTask.ends fun _ => .start :=
  InboxTask.keeps_program

theorem receiving_follows : (receiving κ).Follows InboxTask.protocol fun _ => .start :=
  fun task => (InboxTask.keeps_program task).mono fun _ _ _ => trivial

/-- The phases of the inbox without regard to what is allowed in them. -/
def InboxTask.phases : Protocol κ InboxTask.Phase :=
  ⟨fun _ _ => True, InboxTask.Phase.next⟩

/-- How far the job with a number has come. -/
def intake (number : Nat) (history : List (Moment κ (InboxTask κ))) : InboxTask.Phase :=
  InboxTask.phases.phase .start number history

theorem phase_eq_intake {ρ : Type} (world : World κ (InboxTask κ) ρ) (worker : Worker (InboxTask κ)) :
    world.phase InboxTask.protocol (fun _ => .start) worker =
      intake worker.number world.history := by
  have hnext : worker.task.protocol.next = InboxTask.phases.next := rfl
  exact Protocol.phase_congr hnext .start worker.number world.history

def Call.repeats : (call : Call κ) → call.Answer → Bool
  | .stage _ _, Except.error (.duplicate _ _) => true
  | .commit _, Except.error (.duplicate _ _) => true
  | _, _ => false

theorem Call.repeats_stage {tx : Transaction} {draft : Draft}
    {answer : (Call.stage tx draft : Call κ).Answer}
    (h : Call.repeats (.stage tx draft : Call κ) answer = true) :
    ∃ id delivery, answer = .error (.duplicate id delivery) := by
  match answer with
  | .ok value => cases h
  | .error error =>
      cases error with
      | duplicate id delivery => exact ⟨id, delivery, rfl⟩
      | _ => cases h

theorem Call.repeats_commit {tx : Transaction} {answer : (Call.commit tx : Call κ).Answer}
    (h : Call.repeats (.commit tx : Call κ) answer = true) :
    ∃ id delivery, answer = .error (.duplicate id delivery) := by
  match answer with
  | .ok value => cases h
  | .error error =>
      cases error with
      | duplicate id delivery => exact ⟨id, delivery, rfl⟩
      | _ => cases h

namespace InboxTask.Phase

variable {phase : InboxTask.Phase} {call : Call κ} {answer : call.Answer}

theorem next_eq_recorded {row : Row} : phase.next call answer = .recorded row ↔
    phase = .recorded row ∨ phase = .staged row ∧ call.commits answer = true := by
  cases phase with
  | start =>
      cases call with
      | stage tx draft =>
          match answer with
          | .ok (written, taken) => simp [next]
          | .error error => cases error <;> simp [next]
      | _ => simp [next]
  | staged held =>
      cases call with
      | commit tx =>
          match answer with
          | .ok value => simp [next, Call.commits]
          | .error error => cases error <;> simp [next, Call.commits]
      | _ => simp [next, Call.commits]
  | recorded held => simp [next]
  | known id => simp [next]

theorem next_eq_known {id : MessageId} (h : phase.next call answer = .known id) :
    phase = .known id ∨ call.repeats answer = true ∧
      ((∃ tx draft, call = .stage tx draft ∧ draft.messageId = id) ∨
        ∃ row, phase = .staged row ∧ (∃ tx, call = .commit tx) ∧ row.messageId = id) := by
  cases phase with
  | start =>
      cases call with
      | stage tx draft =>
          match answer with
          | .ok (written, taken) => cases h
          | .error error =>
              cases error with
              | duplicate =>
                  exact Or.inr ⟨rfl, Or.inl ⟨tx, draft, rfl, InboxTask.Phase.known.inj h⟩⟩
              | _ => cases h
      | _ => cases h
  | staged held =>
      cases call with
      | commit tx =>
          match answer with
          | .ok value => cases h
          | .error error =>
              cases error with
              | duplicate =>
                  exact Or.inr ⟨rfl, Or.inr ⟨held, rfl, ⟨tx, rfl⟩, InboxTask.Phase.known.inj h⟩⟩
              | _ => cases h
      | _ => cases h
  | recorded held => cases h
  | known other => exact Or.inl h

end InboxTask.Phase

section intake

variable {number : Nat} {moment : Moment κ (InboxTask κ)} {past later : List (Moment κ (InboxTask κ))}
  {row : Row}

theorem intake_cons_by (h : moment.isBy number = true) :
    intake number (moment :: past) = (intake number past).next moment.call moment.answer :=
  Protocol.phase_cons_by h

theorem intake_cons_other (h : moment.isBy number = false) :
    intake number (moment :: past) = intake number past :=
  Protocol.phase_cons_other h

theorem intake_recorded : intake number (moment :: past) = .recorded row ↔
    intake number past = .recorded row ∨
      moment.isBy number = true ∧ intake number past = .staged row ∧ moment.commits = true := by
  by_cases hby : moment.isBy number = true
  · rw [intake_cons_by hby, InboxTask.Phase.next_eq_recorded, hby, eq_self, true_and]
    rfl
  · rw [intake_cons_other (Bool.not_eq_true _ ▸ hby)]
    simp [hby]

theorem intake_known {id : MessageId} (h : intake number (moment :: past) = .known id) :
    intake number past = .known id ∨ moment.isBy number = true ∧
      moment.call.repeats moment.answer = true ∧
        ((∃ tx draft, moment.call = .stage tx draft ∧ draft.messageId = id) ∨
          ∃ row, intake number past = .staged row ∧ (∃ tx, moment.call = .commit tx) ∧
            row.messageId = id) := by
  by_cases hby : moment.isBy number = true
  · rw [intake_cons_by hby] at h
    exact (InboxTask.Phase.next_eq_known h).imp_right fun hnew => ⟨hby, hnew⟩
  · rw [intake_cons_other (Bool.not_eq_true _ ▸ hby)] at h
    exact Or.inl h

/-- What is recorded stays recorded. -/
theorem intake_recorded_later (h : intake number past = .recorded row) :
    intake number (later ++ past) = .recorded row := by
  induction later with
  | nil => exact h
  | cons latest later ih => exact intake_recorded.2 (Or.inl ih)

end intake

namespace Store

variable {store : Store}

/-- In an empty transaction a message is not accepted only if it is committed. -/
theorem slot_of_not_staged {draft : Draft} {now : Instant} {error : StoreError}
    (h : (store.stage Transaction.empty draft now).2 = .error error) :
    draft.slot ∈ store.rows.map Row.slot := by
  by_contra hnew
  have hnot : store.hasMessage draft.messageId draft.delivery = false :=
    Bool.eq_false_iff.2 fun hthere => hnew (hasMessage_iff.1 hthere)
  simp [stage, hnot, Transaction.empty] at h

/-- A single row is not committed only if its message is. -/
theorem slot_of_not_committed {row : Row} {error : StoreError}
    (h : (store.commitOrLeave ⟨[row], []⟩).1 = .error error) :
    row.slot ∈ store.rows.map Row.slot := by
  by_contra hnew
  have hnot : store.hasMessage row.messageId row.delivery = false :=
    Bool.eq_false_iff.2 fun hthere => hnew (hasMessage_iff.1 hthere)
  have haccepts : store.checkRows [row] = .ok () := by
    simp [checkRows, hnot]
  have hcommit : ∃ committed, store.commit ⟨[row], []⟩ = .ok committed :=
    ⟨_, commit_iff.2 ⟨⟨rfl, haccepts⟩, rfl⟩⟩
  obtain ⟨committed, hcommit⟩ := hcommit
  rw [commitOrLeave, hcommit] at h
  cases h

end Store

section calls

variable {earlier : List (Action κ (InboxTask κ))} {moment : Moment κ (InboxTask κ)}
  {worker : Worker (InboxTask κ)}

/-- In the world that these actions lead to. -/
abbrev received (actions : List (Action κ (InboxTask κ))) : World κ (InboxTask κ) InboxTask.Outcome :=
  (receiving κ).world actions

theorem receiving_allows (hmakes : (receiving κ).Makes (received earlier) moment)
    (hworker : moment.worker = some worker) :
    worker.task.allows (intake worker.number (received earlier).history) moment.call := by
  have hallows := hmakes.allows receiving_follows hworker
  rw [phase_eq_intake] at hallows
  exact hallows

inductive Moment.Files (before : Store) (past : List (Moment κ (InboxTask κ)))
    (moment : Moment κ (InboxTask κ)) : Prop where
  /-- None is added, -/
  | others (rows : List Row) (hrows : ∀ row ∈ rows, row.delivery ≠ .inbox)
      (hlabels : (moment.after.rows.map Row.label).Perm ((before.rows ++ rows).map Row.label))
      (hnone : ∀ worker, moment.worker = some worker → moment.commits = false)
  /-- or the one that a call of the inbox has staged. -/
  | first (worker : Worker (InboxTask κ)) (row : Row) (hworker : moment.worker = some worker)
      (hstaged : intake worker.number past = .staged row)
      (hdraft : worker.task.draft? = some row.draft) (hcommits : moment.commits = true)
      (hnew : row.slot ∉ before.rows.map Row.slot)
      (hlabels : (moment.after.rows.map Row.label).Perm ((before.rows ++ [row]).map Row.label))

theorem receiving_files (hmakes : (receiving κ).Makes (received earlier) moment) :
    moment.Files (received earlier).store (received earlier).history := by
  by_cases hcommits : moment.commits = true
  · obtain ⟨tx, hcall, hcommit⟩ := hmakes.of_commits hcommits
    rw [hmakes.before] at hcommit
    have hopen : tx ∈ (received earlier).transactions :=
      (received earlier).tx_mem_of_mayCall hmakes.may (by rw [hcall]; rfl)
    have hperm := (World.sound (receiving κ) earlier).committed_perm hopen hcommit
    cases hworker : moment.worker with
    | none =>
        have hbystander := hmakes.bystander hworker
        rw [hcall] at hbystander
        refine .others tx.rows (fun row hrow => ?_) (hperm.map Row.label) fun _ hother => ?_
        · exact bne_iff_ne.1 (List.all_eq_true.1 hbystander row hrow)
        · rw [hworker] at hother
          cases hother
    | some worker =>
        have hallows := receiving_allows hmakes hworker
        rw [hcall] at hallows
        obtain ⟨row, hstaged, rfl, hdraft⟩ := hallows
        have hnew := Store.checkRows_ok (Store.commit_eq_ok hcommit).2.1 row
          (List.mem_singleton_self row)
        exact .first worker row hworker hstaged hdraft hcommits hnew (hperm.map Row.label)
  · have hfailed := Bool.eq_false_iff.2 hcommits
    refine .others [] (fun _ hrow => nomatch hrow) ?_ fun _ _ => hfailed
    rw [List.append_nil]
    rcases hmakes.stores_part Row.label (fun _ _ => rfl) with ⟨_, hsame⟩ | ⟨tx, _, hcall, _, _⟩
    · rw [hsame]
    · rw [hmakes.unchanged hcall (fun _ => rfl) hfailed, hmakes.before]

/-- Nothing that was kept is lost. -/
theorem Moment.Files.grows {before : Store} {past : List (Moment κ (InboxTask κ))}
    (h : moment.Files before past) :
    before.rows.map Row.label ⊆ moment.after.rows.map Row.label := by
  cases h with
  | others rows _ hlabels _ =>
      rw [List.map_append] at hlabels
      exact fun label hlabel => hlabels.mem_iff.2 (List.mem_append_left _ hlabel)
  | first _ _ _ _ _ _ _ hlabels =>
      rw [List.map_append] at hlabels
      exact fun label hlabel => hlabels.mem_iff.2 (List.mem_append_left _ hlabel)

theorem not_mishap_duplicate {call : Call κ} {manner : Manner} {id : MessageId} {delivery : Delivery}
    (h : manner.mishap.all ((receiving κ).mishap call) = true) :
    manner.mishap ≠ some (.refused (.duplicate id delivery)) ∧
      manner.mishap ≠ some (.lost (.duplicate id delivery)) := by
  constructor
  · intro hmishap
    rw [hmishap] at h
    cases call <;> cases h
  · intro hmishap
    rw [hmishap] at h
    cases call <;> cases h

/-- A message that the store calls a duplicate is there, whether it was to be staged or to be
committed. -/
theorem receiving_repeats (hmakes : (receiving κ).Makes (received earlier) moment)
    (hrepeats : moment.call.repeats moment.answer = true) :
    (∀ draft, moment.call = .stage Transaction.empty draft →
      draft.slot ∈ (received earlier).store.rows.map Row.slot) ∧
    ∀ row, moment.call = .commit ⟨[row], []⟩ →
      row.slot ∈ (received earlier).store.rows.map Row.slot := by
  rw [← hmakes.before]
  obtain ⟨worker, call, answer, before, after⟩ := moment
  obtain ⟨manner, hmishap, hresponse⟩ := hmakes.mishap
  have hanswer := (congrArg Prod.fst hresponse).symm
  constructor
  · rintro draft rfl
    obtain ⟨id, delivery, rfl⟩ := Call.repeats_stage hrepeats
    obtain ⟨hrefused, hlost⟩ := not_mishap_duplicate hmishap
    exact Store.slot_of_not_staged (Manner.onStore_own hanswer hrefused hlost)
  · rintro row rfl
    obtain ⟨id, delivery, rfl⟩ := Call.repeats_commit hrepeats
    obtain ⟨hrefused, hlost⟩ := not_mishap_duplicate hmishap
    exact Store.slot_of_not_committed (Manner.onStore_own hanswer hrefused hlost)

/-- How far the calls of the inbox have come tells which messages it has kept. -/
structure Filed (store : Store) (history : List (Moment κ (InboxTask κ))) : Prop where
  kept : ∀ number row, intake number history = .recorded row →
    row.delivery = .inbox ∧ row.label ∈ store.rows.map Row.label
  filed : ∀ row ∈ store.rows, row.delivery = .inbox →
    ∃ number held, intake number history = .recorded held ∧ held.label = row.label
  once : ∀ i j one two, intake i history = .recorded one → intake j history = .recorded two →
    one.messageId = two.messageId → i = j
  known : ∀ number id, intake number history = .known id →
    (id, .inbox) ∈ store.rows.map Row.slot
  asked : ∀ number row, intake number history = .recorded row →
    ∃ moment ∈ history, ∃ worker, moment.worker = some worker ∧ worker.number = number ∧
      worker.task.draft? = some row.draft

theorem slots_of_labels {rows others : List Row}
    (h : rows.map Row.label ⊆ others.map Row.label) : rows.map Row.slot ⊆ others.map Row.slot := by
  intro slot hslot
  obtain ⟨row, hrow, rfl⟩ := List.mem_map.1 hslot
  obtain ⟨other, hother, hlabel⟩ := List.mem_map.1 (h (List.mem_map_of_mem hrow))
  exact List.mem_map.2 ⟨other, hother, congrArg (·.2.slot) hlabel⟩

theorem Filed.known_step (h : Filed (received earlier).store (received earlier).history)
    (hmakes : (receiving κ).Makes (received earlier) moment) {number : Nat} {id : MessageId}
    (hknown : intake number (moment :: (received earlier).history) = .known id) :
    (id, .inbox) ∈ moment.after.rows.map Row.slot := by
  refine slots_of_labels (receiving_files hmakes).grows ?_
  rcases intake_known hknown with hold | ⟨hby, hrepeats, hcall⟩
  · exact h.known number id hold
  · obtain ⟨worker, hworker, rfl⟩ := Moment.isBy_iff.1 hby
    obtain ⟨hstaged, hcommitted⟩ := receiving_repeats hmakes hrepeats
    have hallows := receiving_allows hmakes hworker
    rcases hcall with ⟨tx, draft, hcall, rfl⟩ | ⟨row, hrow, ⟨tx, hcall⟩, rfl⟩
    · rw [hcall] at hallows
      obtain ⟨_, rfl, hdraft⟩ := hallows
      have hslot := hstaged draft hcall
      rwa [Draft.slot, InboxTask.delivery_of_draft hdraft] at hslot
    · rw [hcall] at hallows
      obtain ⟨held, hheld, rfl, hdraft⟩ := hallows
      obtain rfl := InboxTask.Phase.staged.inj (hrow.symm.trans hheld)
      have hslot := hcommitted row hcall
      rwa [Row.slot, Draft.slot, InboxTask.delivery_of_draft hdraft] at hslot

theorem Filed.step (h : Filed (received earlier).store (received earlier).history)
    (hmakes : (receiving κ).Makes (received earlier) moment) :
    Filed moment.after (moment :: (received earlier).history) := by
  have hfiles := receiving_files hmakes
  have hgrows := hfiles.grows
  cases hfiles with
  | others rows hrows hlabels hnone =>
      have hsame : ∀ number row, intake number (moment :: (received earlier).history) =
          .recorded row → intake number (received earlier).history = .recorded row := by
        intro number row hrecorded
        rcases intake_recorded.1 hrecorded with hold | ⟨hby, _, hcommits⟩
        · exact hold
        · obtain ⟨worker, hworker, _⟩ := Moment.isBy_iff.1 hby
          rw [hnone worker hworker] at hcommits
          cases hcommits
      constructor
      · intro number row hrecorded
        obtain ⟨hinbox, hlabel⟩ := h.kept number row (hsame number row hrecorded)
        exact ⟨hinbox, hgrows hlabel⟩
      · intro row hrow hinbox
        obtain ⟨same, hthere, hlabel⟩ := List.mem_map.1 (hlabels.mem_iff.1 (List.mem_map_of_mem hrow))
        have hdelivery : same.delivery = row.delivery := congrArg (·.2.delivery) hlabel
        rcases List.mem_append.1 hthere with hold | hadded
        · obtain ⟨number, held, hrecorded, heq⟩ := h.filed same hold (hdelivery.trans hinbox)
          exact ⟨number, held, intake_recorded.2 (Or.inl hrecorded), heq.trans hlabel⟩
        · exact absurd (hdelivery.trans hinbox) (hrows same hadded)
      · intro i j one two hone htwo
        exact h.once i j one two (hsame i one hone) (hsame j two htwo)
      · intro number id hknown
        exact h.known_step hmakes hknown
      · intro number row hrecorded
        obtain ⟨made, hmade, hasked⟩ := h.asked number row (hsame number row hrecorded)
        exact ⟨made, List.mem_cons_of_mem _ hmade, hasked⟩
  | first worker row hworker hstaged hdraft hcommits hnew hlabels =>
      have hnext : ∀ number held, intake number (moment :: (received earlier).history) =
          .recorded held → intake number (received earlier).history = .recorded held ∨
            number = worker.number ∧ held = row := by
        intro number held hrecorded
        rcases intake_recorded.1 hrecorded with hold | ⟨hby, hheld, _⟩
        · exact Or.inl hold
        · obtain ⟨other, hother, rfl⟩ := Moment.isBy_iff.1 hby
          obtain rfl := Option.some.inj (hworker.symm.trans hother)
          exact Or.inr ⟨rfl, InboxTask.Phase.staged.inj (hheld.symm.trans hstaged)⟩
      have hinbox : row.delivery = .inbox := InboxTask.delivery_of_draft hdraft
      have hother : ∀ number held, intake number (received earlier).history = .recorded held →
          held.messageId ≠ row.messageId := by
        intro number held hrecorded hsame
        obtain ⟨hdelivery, hlabel⟩ := h.kept number held hrecorded
        obtain ⟨kept, hkept, heq⟩ := List.mem_map.1 hlabel
        have hslot : kept.slot = row.slot :=
          (congrArg (·.2.slot) heq).trans (Prod.ext hsame (hdelivery.trans hinbox.symm))
        exact hnew (hslot ▸ List.mem_map_of_mem hkept)
      constructor
      · intro number held hrecorded
        rcases hnext number held hrecorded with hold | ⟨_, rfl⟩
        · obtain ⟨hdelivery, hlabel⟩ := h.kept number held hold
          exact ⟨hdelivery, hgrows hlabel⟩
        · refine ⟨hinbox, hlabels.mem_iff.2 (List.mem_map_of_mem ?_)⟩
          exact List.mem_append_right _ (List.mem_singleton_self held)
      · intro kept hkept hdelivery
        obtain ⟨same, hthere, hlabel⟩ := List.mem_map.1 (hlabels.mem_iff.1 (List.mem_map_of_mem hkept))
        have hsame : same.delivery = kept.delivery := congrArg (·.2.delivery) hlabel
        rcases List.mem_append.1 hthere with hold | hadded
        · obtain ⟨number, held, hrecorded, heq⟩ := h.filed same hold (hsame.trans hdelivery)
          exact ⟨number, held, intake_recorded.2 (Or.inl hrecorded), heq.trans hlabel⟩
        · obtain rfl := List.mem_singleton.1 hadded
          have hby : moment.isBy worker.number = true := Moment.isBy_iff.2 ⟨worker, hworker, rfl⟩
          exact ⟨worker.number, same, intake_recorded.2 (Or.inr ⟨hby, hstaged, hcommits⟩), hlabel⟩
      · intro i j one two hone htwo hsame
        rcases hnext i one hone with hold | ⟨rfl, rfl⟩
        · rcases hnext j two htwo with holder | ⟨rfl, rfl⟩
          · exact h.once i j one two hold holder hsame
          · exact absurd hsame (hother i one hold)
        · rcases hnext j two htwo with holder | ⟨rfl, rfl⟩
          · exact absurd hsame.symm (hother j two holder)
          · rfl
      · intro number id hknown
        exact h.known_step hmakes hknown
      · intro number held hrecorded
        rcases hnext number held hrecorded with hold | ⟨rfl, rfl⟩
        · obtain ⟨made, hmade, hasked⟩ := h.asked number held hold
          exact ⟨made, List.mem_cons_of_mem _ hmade, hasked⟩
        · exact ⟨moment, List.mem_cons_self, worker, hworker, rfl, hdraft⟩

theorem filed (actions : List (Action κ (InboxTask κ))) :
    Filed (received actions).store (received actions).history := by
  refine Rules.call_induction rfl (fun store _ history => Filed store history) ?_ ?_ actions
  · constructor
    · intro number row h
      cases h
    · intro row hrow
      cases hrow
    · intro i j one two h
      cases h
    · intro number id h
      cases h
    · intro number row h
      cases h
  · intro earlier moment h hmakes
    exact h.step hmakes

/-- A call of the inbox changes committed rows or documents only by a commit that it is told of. -/
theorem unaffected_of_not_commits (hmakes : (receiving κ).Makes (received earlier) moment)
    (hworker : moment.worker = some worker) (htask : worker.task.isTick = false)
    (hcommits : moment.commits = false) :
    moment.after.rows = moment.before.rows ∧ moment.after.documents = moment.before.documents := by
  have hallows := receiving_allows hmakes hworker
  cases hmakes.effect with
  | quiet hstore _ _ =>
      rw [hstore]
      exact ⟨rfl, rfl⟩
  | changed change row hcall _ _ _ _ _ =>
      rw [hcall] at hallows
      exact absurd hallows (by simp [InboxTask.allows, htask])
  | staged draft now hafter _ _ =>
      rw [hafter]
      exact ⟨rfl, rfl⟩
  | committed tx _ _ _ _ hcall =>
      rw [hmakes.unchanged hcall (fun _ => rfl) hcommits]
      exact ⟨rfl, rfl⟩

end calls

def World.Returned (world : World κ (InboxTask κ) InboxTask.Outcome) (number : Nat)
    (task : InboxTask κ) (outcome : Except MessagingError Received) : Prop :=
  world.jobs[number]? = some ⟨task, .done (.received outcome)⟩

section returned

variable {actions : List (Action κ (InboxTask κ))} {number : Nat} {task : InboxTask κ}
  {outcome : Except MessagingError Received}

/-- A call has ended as far as it has come. -/
theorem ends_of_returned (h : (received actions).Returned number task outcome) :
    task.isTick = false ∧ task.Ends outcome (intake number (received actions).history) := by
  have hends := (World.keeping receiving_followsTo actions).ended
    (show (received actions).jobs[(⟨number, task⟩ : Worker (InboxTask κ)).number]? = _ from h)
  rw [phase_eq_intake] at hends
  exact hends

/-- Once it has recorded its message, a call returns. -/
theorem returned_of_recorded {row : Row}
    (h : intake number (received actions).history = .recorded row) :
    ∃ task, (received actions).Returned number task (.ok (.recorded row)) ∧
      task.draft? = some row.draft := by
  obtain ⟨moment, hmoment, worker, hworker, rfl, hdraft⟩ := (filed actions).asked number row h
  have hkeeping := World.keeping receiving_followsTo actions
  obtain ⟨rest, hjob⟩ := hkeeping.worker moment hmoment worker hworker
  have hkeeps := hkeeping.rest worker rest hjob
  rw [phase_eq_intake, h] at hkeeps
  have htask : worker.task.isTick = false := by
    cases htask : worker.task with
    | tick shift =>
        rw [htask] at hdraft
        cases hdraft
    | _ => rfl
  refine ⟨worker.task, ?_, hdraft⟩
  cases rest with
  | done value =>
      cases value with
      | received outcome =>
          obtain ⟨_, hends⟩ := hkeeps
          match outcome with
          | .ok (.recorded held) =>
              obtain rfl := InboxTask.Phase.recorded.inj hends
              exact hjob
          | .ok (.duplicate id) => cases hends.1
          | .error error => cases hends
      | report outcome =>
          have htick : worker.task.isTick = true := hkeeps
          rw [htask] at htick
          cases htick
  | ask call next =>
      have hallows : worker.task.allows (.recorded row) call := hkeeps.1
      cases call <;> simp [InboxTask.allows, htask, InboxTask.Phase.recorded?] at hallows

/-- What a call returns as recorded is the row of its envelope. -/
theorem recorded_of_returned {row : Row}
    (h : (received actions).Returned number task (.ok (.recorded row))) :
    intake number (received actions).history = .recorded row ∧ task.draft? = some row.draft := by
  have hrecorded : intake number (received actions).history = .recorded row :=
    (ends_of_returned h).2
  obtain ⟨same, hreturned, hdraft⟩ := returned_of_recorded hrecorded
  have htask := congrArg Job.task (Option.some.inj (hreturned.symm.trans h))
  simp only at htask
  rw [← htask]
  exact ⟨hrecorded, hdraft⟩

/-- Of a call that has recorded nothing no commit has succeeded. -/
theorem not_commits_of_returned (h : (received actions).Returned number task outcome)
    (hnothing : ∀ row, outcome ≠ .ok (.recorded row)) {moment : Moment κ (InboxTask κ)}
    {later past : List (Moment κ (InboxTask κ))}
    (hhistory : (received actions).history = later ++ moment :: past)
    (hby : moment.isBy number = true) : moment.commits = false := by
  by_contra hcommits
  rw [Bool.not_eq_false] at hcommits
  obtain ⟨earlier, hpast, hmakes⟩ := World.made_earlier rfl actions hhistory
  obtain ⟨worker, hworker, rfl⟩ := Moment.isBy_iff.1 hby
  obtain ⟨tx, hcall, _⟩ := hmakes.of_commits hcommits
  have hallows := receiving_allows hmakes hworker
  rw [hcall, hpast] at hallows
  obtain ⟨row, hstaged, _⟩ := hallows
  have hrecorded : intake worker.number (received actions).history = .recorded row := by
    rw [hhistory]
    exact intake_recorded_later (intake_recorded.2 (Or.inr ⟨hby, hstaged, hcommits⟩))
  obtain ⟨same, hreturned, _⟩ := returned_of_recorded hrecorded
  have hrest := congrArg Job.rest (Option.some.inj (hreturned.symm.trans h))
  exact hnothing row (InboxTask.Outcome.received.inj (Program.done.inj hrest)).symm

end returned

/-- What the calls of the inbox have come to. -/
structure World.KeepsOnce (world : World κ (InboxTask κ) InboxTask.Outcome) : Prop where
  /-- Of the deliveries of a message one at most records it, -/
  once : ∀ i j one two id a b, one.messageId? = some id → two.messageId? = some id →
    world.Returned i one (.ok (.recorded a)) → world.Returned j two (.ok (.recorded b)) → i = j
  /-- and every other that succeeds is told that it is there. -/
  again : ∀ number task received, world.Returned number task (.ok received) →
    (∃ row, received = .recorded row) ∨ ∃ id, received = .duplicate id ∧
      task.messageId? = some id ∧ ∃ row ∈ world.store.rows, row.messageId = id ∧ row.delivery = .inbox
  /-- What is recorded is kept as it came in, under the number that was returned, and once. -/
  kept : ∀ number task row, world.Returned number task (.ok (.recorded row)) →
    ∃ kept ∈ world.store.rows, kept.id = row.id ∧ kept.delivery = .inbox ∧
      task.draft? = some kept.draft ∧ ∀ other ∈ world.store.rows, other.delivery = .inbox →
        task.messageId? = some other.messageId → other = kept
  /-- Nothing else is in the inbox. -/
  only : ∀ row ∈ world.store.rows, row.delivery = .inbox → ∃ number task held,
    world.Returned number task (.ok (.recorded held)) ∧ held.id = row.id ∧
      task.messageId? = some row.messageId
  /-- Whoever records nothing changes nothing. -/
  unaffected : ∀ number task outcome, world.Returned number task outcome →
    (∀ row, outcome ≠ .ok (.recorded row)) → ∀ moment ∈ world.history,
      moment.isBy number = true → moment.after.rows = moment.before.rows ∧
        moment.after.documents = moment.before.documents

/-- However often messages are delivered to the inbox, and in whatever order the calls of the
deliveries, of other writers and of publishers come: each message is kept once, and each delivery is
told the truth about it. -/
theorem messages_received_once (actions : List (Action κ (InboxTask κ))) :
    (received actions).KeepsOnce := by
  have hfiled := filed actions
  constructor
  · intro i j one two id a b hone htwo hi hj
    obtain ⟨ha, hdraft⟩ := recorded_of_returned hi
    obtain ⟨hb, hother⟩ := recorded_of_returned hj
    have hsame : a.messageId = b.messageId := by
      rw [InboxTask.messageId_of_draft hdraft] at hone
      rw [InboxTask.messageId_of_draft hother, ← hone] at htwo
      exact (Option.some.inj htwo).symm
    exact hfiled.once i j a b ha hb hsame
  · intro number task received hreturned
    cases received with
    | recorded row => exact Or.inl ⟨row, rfl⟩
    | duplicate id =>
        obtain ⟨_, hknown, hid⟩ := ends_of_returned hreturned
        obtain ⟨row, hrow, hslot⟩ := List.mem_map.1 (hfiled.known number id hknown)
        obtain ⟨hmessage, hdelivery⟩ := Prod.mk.inj hslot
        exact Or.inr ⟨id, rfl, hid, row, hrow, hmessage, hdelivery⟩
  · intro number task row hreturned
    obtain ⟨hrecorded, hdraft⟩ := recorded_of_returned hreturned
    obtain ⟨hinbox, hlabel⟩ := hfiled.kept number row hrecorded
    obtain ⟨kept, hkept, hsame⟩ := List.mem_map.1 hlabel
    obtain ⟨hid, hmessage⟩ := Prod.mk.inj hsame
    have hdelivery : kept.delivery = .inbox := (congrArg Draft.delivery hmessage).trans hinbox
    refine ⟨kept, hkept, hid, hdelivery, by rw [hmessage]; exact hdraft, ?_⟩
    intro other hother htoo hagain
    rw [InboxTask.messageId_of_draft hdraft, ← hmessage] at hagain
    exact (World.unrepeated (receiving κ) actions).eq_of_slot_eq hother hkept
      (Option.some.inj hagain).symm (htoo.trans hdelivery.symm)
  · intro row hrow hinbox
    obtain ⟨number, held, hrecorded, hlabel⟩ := hfiled.filed row hrow hinbox
    obtain ⟨hid, hmessage⟩ := Prod.mk.inj hlabel
    obtain ⟨task, hreturned, hdraft⟩ := returned_of_recorded hrecorded
    rw [hmessage] at hdraft
    exact ⟨number, task, held, hreturned, hid, InboxTask.messageId_of_draft hdraft⟩
  · intro number task outcome hreturned hnothing moment hmoment hby
    obtain ⟨later, past, hhistory⟩ := List.append_of_mem hmoment
    have hcommits := not_commits_of_returned hreturned hnothing hhistory hby
    obtain ⟨earlier, _, hmakes⟩ := World.made_earlier rfl actions hhistory
    obtain ⟨worker, hworker, rfl⟩ := Moment.isBy_iff.1 hby
    obtain ⟨rest, hjob⟩ :=
      (World.keeping receiving_followsTo actions).worker moment hmoment worker hworker
    have htask := congrArg Job.task (Option.some.inj (hjob.symm.trans hreturned))
    simp only at htask
    rw [← htask] at hreturned
    exact unaffected_of_not_commits hmakes hworker (ends_of_returned hreturned).1 hcommits

/-- Notes are taken, and what they say does not matter. -/
def noting : Registry Unit :=
  ⟨Table.empty.insert "note"
    ⟨fun _ => .ok (), some ⟨"note", fun raw => .ok ⟨(), raw.metadata⟩⟩⟩⟩

/-- A note comes in twice.  Both deliveries have staged it when the first of them commits. -/
def notedTwice : List (Action Unit (InboxTask Unit)) :=
  let note : RawEnvelope :=
    ⟨.null, Metadata.fresh ⟨Uuid.nil⟩ epoch "note" (Context.ofCorrelation ⟨Uuid.nil⟩)⟩
  [1, 1, 0, 1, 0, 1, 0, 1, 0].map (.work · { clock := epoch }) ++
    [.start (.receive noting note), .start (.receive noting note)]

/-- What a delivery was told: whether its message was there. -/
def Job.repeated? {τ : Type} (job : Job κ τ InboxTask.Outcome) : Option Bool :=
  match job.rest with
  | .done (.received (.ok (.recorded _))) => some false
  | .done (.received (.ok (.duplicate _))) => some true
  | _ => none

example : (received notedTwice).jobs.map Job.repeated? = [some false, some true] ∧
    (received notedTwice).store.rows.map (·.id) = [⟨1⟩] := by
  decide +kernel

end Courier
