import Courier.Proofs.Interleaving.Histories
import Mathlib.Data.List.Nodup
/-
What transactions put into a store.  A row stays the message that was drafted when it was staged, and
no message is committed twice for one way of delivery, whoever else stages it at the same time.
-/
namespace Courier

variable {κ τ ρ : Type}

def Row.draft (row : Row) : Draft where
  messageId := row.messageId
  dataType := row.dataType
  data := row.data
  delivery := row.delivery
  correlationId := row.correlationId
  causationId := row.causationId

theorem Row.draft_apply (row : Row) (change : Change) : (row.apply change).draft = row.draft :=
  rfl

/-- The number of a row and its message, which no change touches. -/
def Row.label (row : Row) : RowId × Draft :=
  (row.id, row.draft)

/-- A message and its way of delivery; a store takes each of them once. -/
def Draft.slot (draft : Draft) : MessageId × Delivery :=
  (draft.messageId, draft.delivery)

def Row.slot (row : Row) : MessageId × Delivery :=
  row.draft.slot

namespace Store

/-- What no change touches is the same for all rows after a change. -/
theorem map_changeRow {α : Type} (part : Row → α)
    (hpart : ∀ row change, part (row.apply change) = part row) {rows : List Row}
    (h : DistinctNumbers rows) {row : Row} (hrow : row ∈ rows) (change : Change) :
    (changeRow rows (row.apply change)).map part = rows.map part := by
  simp only [changeRow, List.map_map]
  apply List.map_congr_left
  intro other hother
  by_cases hid : other.id = (row.apply change).id
  · have heq : other = row := h.eq_of_id_eq hother hrow hid
    rw [Function.comp_apply, if_pos hid, heq, hpart]
  · simp only [Function.comp_apply, hid, ↓reduceIte]

theorem hasMessage_iff {store : Store} {messageId : MessageId} {delivery : Delivery} :
    store.hasMessage messageId delivery = true ↔ (messageId, delivery) ∈ store.rows.map Row.slot := by
  simp [hasMessage, Row.slot, Draft.slot, Row.draft]

theorem checkRows_ok {store : Store} {rows : List Row} (h : store.checkRows rows = .ok ()) :
    ∀ row ∈ rows, row.slot ∉ store.rows.map Row.slot := by
  induction rows with
  | nil =>
      intro row hrow
      cases hrow
  | cons head rest ih =>
      simp only [checkRows] at h
      split at h
      · cases h
      · rename_i hnew
        intro row hrow
        rcases List.mem_cons.1 hrow with rfl | hrest
        · exact fun hslot => hnew (hasMessage_iff.2 hslot)
        · exact ih h row hrest

theorem commit_eq_ok {store committed : Store} {tx : Transaction}
    (h : store.commit tx = .ok committed) :
    store.checkDocuments [] tx.documents = .ok () ∧ store.checkRows tx.rows = .ok () ∧
      committed.documents = (tx.documents.map (·.document)).foldl putDocument store.documents := by
  obtain ⟨⟨hdocuments, hrows⟩, rfl⟩ := commit_iff.1 h
  exact ⟨hdocuments, hrows, rfl⟩

/-- A message is staged only if neither the transaction nor the store has it. -/
theorem stage_new {store after : Store} {tx written : Transaction} {draft : Draft} {now : Instant}
    {row : Row} (h : store.stage tx draft now = (after, .ok (written, row))) :
    written = { tx with rows := tx.rows ++ [row] } ∧ row.draft = draft ∧
      draft.slot ∉ tx.rows.map Row.slot ∧ draft.slot ∉ store.rows.map Row.slot := by
  simp only [stage] at h
  split at h
  · cases h
  · rename_i hnew
    simp only [Bool.or_eq_true, not_or, hasMessage_iff] at hnew
    obtain ⟨rfl, rfl⟩ := Prod.mk.inj (Except.ok.inj (Prod.mk.inj h).2)
    refine ⟨rfl, rfl, fun hslot => hnew.1 ?_, hnew.2⟩
    obtain ⟨other, hother, hsame⟩ := List.mem_map.1 hslot
    obtain ⟨hid, hdelivery⟩ := Prod.mk.inj hsame
    refine List.any_eq_true.2 ⟨other, hother, ?_⟩
    exact Bool.and_eq_true_iff.2 ⟨beq_iff_eq.2 hid, beq_iff_eq.2 hdelivery⟩

end Store

/-- Where an open transaction comes from. -/
inductive Moment.Writes (opened : List Transaction) (moment : Moment κ τ) : Transaction → Prop where
  | kept {tx : Transaction} (hopen : tx ∈ opened) : Writes opened moment tx
  | begun : Writes opened moment Transaction.empty
  | staged {tx : Transaction} (row : Row) (hopen : tx ∈ opened)
      (hcall : moment.call = .stage tx row.draft) (hnew : row.slot ∉ tx.rows.map Row.slot) :
      Writes opened moment { tx with rows := tx.rows ++ [row] }
  | saved {tx : Transaction} (pending : PendingDocument) (hopen : tx ∈ opened)
      (hnext : pending.document.version = pending.expectedVersion + 1)
      (hlast : ∀ last, tx.document? pending.document.collection pending.document.key = some last →
        last.version = pending.expectedVersion) :
      Writes opened moment { tx with documents := tx.documents ++ [pending] }

theorem World.moment_writes (world : World κ τ ρ) (worker : Option (Worker τ)) (call : Call κ)
    (manner : Manner) (hmay : world.mayCall call = true) {tx : Transaction}
    (htx : tx ∈ call.leaves world.transactions (world.moment worker call manner).answer) :
    (world.moment worker call manner).Writes world.transactions tx := by
  cases call with
  | begin =>
      generalize hanswer : (world.moment worker .begin manner).answer = answer at htx
      match answer with
      | .error error => exact .kept htx
      | .ok opened =>
          rcases List.mem_cons.1 htx with rfl | hold
          · have hdone := congrArg Prod.fst (Manner.onStore_eq_of_ok hanswer)
            obtain rfl := Except.ok.inj (hdone.symm.trans hanswer)
            exact .begun
          · exact .kept hold
  | stage before draft =>
      have hopen := world.tx_mem_of_mayCall hmay rfl
      generalize hanswer : (world.moment worker (.stage before draft) manner).answer = answer at htx
      match answer with
      | .error error => exact .kept htx
      | .ok (written, row) =>
          rcases List.mem_cons.1 htx with rfl | hold
          · have hdone := congrArg Prod.fst (Manner.onStore_eq_of_ok hanswer)
            have hstage : world.store.stage before draft manner.clock =
                ((world.store.stage before draft manner.clock).1, .ok (tx, row)) :=
              Prod.ext rfl (hdone.symm.trans hanswer)
            obtain ⟨rfl, rfl, hnew, _⟩ := Store.stage_new hstage
            exact .staged row hopen rfl hnew
          · exact .kept (List.mem_of_mem_erase hold)
  | saveDocument before collection key body expected =>
      have hopen := world.tx_mem_of_mayCall hmay rfl
      generalize hanswer : (world.moment worker (.saveDocument before collection key body expected)
        manner).answer = answer at htx
      match answer with
      | .error error => exact .kept htx
      | .ok (written, document) =>
          rcases List.mem_cons.1 htx with rfl | hold
          · have hdone := congrArg Prod.fst (Manner.onStore_eq_of_ok hanswer)
            have hsave := hdone.symm.trans hanswer
            obtain ⟨rfl, rfl⟩ := Store.saveDocument_ok hsave
            exact .saved _ hopen rfl fun last hlast => Store.saveDocument_last hsave hlast
          · exact .kept (List.mem_of_mem_erase hold)
  | commit before => exact .kept (List.mem_of_mem_erase htx)
  | _ => exact .kept htx

theorem Rules.Makes.writes {rules : Rules κ τ ρ} {world : World κ τ ρ} {moment : Moment κ τ}
    (h : rules.Makes world moment) {tx : Transaction}
    (htx : tx ∈ moment.call.leaves world.transactions moment.answer) :
    moment.Writes world.transactions tx := by
  obtain ⟨worker, call, manner, rfl⟩ := h.made
  exact world.moment_writes worker call manner h.may htx

/-- A call leaves the documents alone, and of the committed rows what no change touches, or it commits a
transaction. -/
theorem Rules.Makes.stores_part {α : Type} (part : Row → α)
    (hpart : ∀ row change, part (row.apply change) = part row) {rules : Rules κ τ ρ}
    {earlier : List (Action κ τ)} {moment : Moment κ τ}
    (h : rules.Makes (rules.world earlier) moment) :
    (moment.after.documents = (rules.world earlier).store.documents ∧
      moment.after.rows.map part = (rules.world earlier).store.rows.map part) ∨
    ∃ tx ∈ (rules.world earlier).transactions, moment.call = .commit tx ∧
      (rules.world earlier).store.commit tx = .ok moment.after ∧
      moment.after.rows.Perm ((rules.world earlier).store.rows ++ tx.rows) := by
  have hsound := World.sound rules earlier
  have hbefore := h.before
  cases h.effect with
  | quiet hstore _ _ =>
      rw [hstore, hbefore]
      exact Or.inl ⟨rfl, rfl⟩
  | changed change row _ hrow _ hafter _ _ =>
      rw [hbefore] at hrow hafter
      rw [hafter]
      exact Or.inl ⟨rfl, Store.map_changeRow part hpart hsound.committed_distinct
        (Store.mem_of_get? hrow).1 change⟩
  | staged draft now hafter _ _ =>
      rw [hafter, hbefore]
      exact Or.inl ⟨rfl, rfl⟩
  | committed tx hopen hcommit _ _ hcall =>
      rw [hbefore] at hcommit
      exact Or.inr ⟨tx, hopen, hcall, hcommit, hsound.committed_perm hopen hcommit⟩

/-- A call leaves the documents and the messages of the committed rows alone, or it commits those of
a transaction. -/
theorem Rules.Makes.stores {rules : Rules κ τ ρ} {earlier : List (Action κ τ)} {moment : Moment κ τ}
    (h : rules.Makes (rules.world earlier) moment) :
    (moment.after.documents = (rules.world earlier).store.documents ∧
      moment.after.rows.map Row.draft = (rules.world earlier).store.rows.map Row.draft) ∨
    ∃ tx ∈ (rules.world earlier).transactions, moment.call = .commit tx ∧
      (rules.world earlier).store.commit tx = .ok moment.after ∧
      moment.after.rows.Perm ((rules.world earlier).store.rows ++ tx.rows) :=
  h.stores_part Row.draft Row.draft_apply

def Call.commits : (call : Call κ) → call.Answer → Bool
  | .commit _, Except.ok _ => true
  | _, _ => false

def Moment.commits (moment : Moment κ τ) : Bool :=
  moment.call.commits moment.answer

def Call.found? : (call : Call κ) → call.Answer → Option Document
  | .documentIn _ _ _, Except.ok found => found
  | _, _ => none

def Moment.found? (moment : Moment κ τ) : Option Document :=
  moment.call.found? moment.answer

section answered

variable {rules : Rules κ τ ρ} {world : World κ τ ρ} {moment : Moment κ τ} {tx : Transaction}

/-- Whoever is told of a commit has committed. -/
theorem Rules.Makes.of_commits (h : rules.Makes world moment) (hcommits : moment.commits = true) :
    ∃ tx, moment.call = .commit tx ∧ moment.before.commit tx = .ok moment.after := by
  obtain ⟨worker, call, answer, before, after⟩ := moment
  obtain ⟨manner, _, hresponse⟩ := h.mishap
  cases call with
  | commit tx =>
      refine ⟨tx, rfl, ?_⟩
      match answer with
      | .error error => cases hcommits
      | .ok value =>
          change (_, after) = manner.onStore before (before.commitOrLeave tx) at hresponse
          have hdone := Manner.onStore_eq_of_ok (congrArg Prod.fst hresponse).symm
          rw [hdone] at hresponse
          unfold Store.commitOrLeave at hresponse
          cases hcommit : before.commit tx with
          | error error =>
              rw [hcommit] at hresponse
              cases hresponse
          | ok committed =>
              rw [hcommit] at hresponse
              exact congrArg Except.ok (Prod.mk.inj hresponse).2.symm
  | _ => cases hcommits

/-- Where no commit takes effect without an answer, one that fails changes nothing. -/
theorem Rules.Makes.unchanged (h : rules.Makes world moment) (hcall : moment.call = .commit tx)
    (hkept : ∀ error, rules.mishap (.commit tx) (.lost error) = false)
    (hfailed : moment.commits = false) : moment.after = moment.before := by
  obtain ⟨worker, call, answer, before, after⟩ := moment
  obtain ⟨manner, hmishap, hresponse⟩ := h.mishap
  change call = _ at hcall
  subst hcall
  change (answer, after) = manner.onStore before (before.commitOrLeave tx) at hresponse
  match answer with
  | .ok value => cases hfailed
  | .error error =>
      unfold Manner.onStore at hresponse
      split at hresponse
      · unfold Store.commitOrLeave at hresponse
        split at hresponse
        · cases hresponse
        · exact (Prod.mk.inj hresponse).2
      · exact (Prod.mk.inj hresponse).2
      · rename_i given hlost
        rw [hlost] at hmishap
        exact absurd hmishap (by simp [hkept given])

/-- A document that is shown in a transaction is there. -/
theorem Rules.Makes.of_found (h : rules.Makes world moment) {document : Document}
    (hfound : moment.found? = some document) :
    ∃ tx collection key, moment.call = .documentIn tx collection key ∧
      moment.before.documentIn? tx collection key = some document := by
  obtain ⟨worker, call, answer, before, after⟩ := moment
  obtain ⟨manner, _, hresponse⟩ := h.mishap
  cases call with
  | documentIn tx collection key =>
      refine ⟨tx, collection, key, rfl, ?_⟩
      change (_, after) =
        manner.onStore before (.ok (before.documentIn? tx collection key), before) at hresponse
      match answer with
      | .error error => cases hfound
      | .ok found =>
          have hanswer := (congrArg Prod.fst hresponse).symm
          have hdone := congrArg Prod.fst (Manner.onStore_eq_of_ok hanswer)
          exact (Except.ok.inj (hdone.symm.trans hanswer)).trans hfound
  | _ => cases hfound

end answered

def Call.draft? : Call κ → Option Draft
  | .stage _ draft => some draft
  | _ => none

def StagedIn (history : List (Moment κ τ)) (draft : Draft) : Prop :=
  ∃ moment ∈ history, moment.call.draft? = some draft

theorem StagedIn.later {history : List (Moment κ τ)} {draft : Draft} (h : StagedIn history draft)
    (moment : Moment κ τ) : StagedIn (moment :: history) draft := by
  obtain ⟨staging, hstaging, hcall⟩ := h
  exact ⟨staging, List.mem_cons_of_mem _ hstaging, hcall⟩

namespace World

/-- No message is there twice for one way of delivery, neither in the store nor in a transaction. -/
structure Unrepeated (store : Store) (transactions : List Transaction) : Prop where
  committed : (store.rows.map Row.slot).Nodup
  staged : ∀ tx ∈ transactions, (tx.rows.map Row.slot).Nodup

theorem Unrepeated.eq_of_slot_eq {store : Store} {transactions : List Transaction}
    (h : Unrepeated store transactions) {a b : Row} (ha : a ∈ store.rows) (hb : b ∈ store.rows)
    (hmessage : a.messageId = b.messageId) (hdelivery : a.delivery = b.delivery) : a = b := by
  have hslot : a.slot = b.slot := Prod.ext hmessage hdelivery
  exact List.inj_on_of_nodup_map h.committed ha hb hslot

theorem map_slot (rows : List Row) : rows.map Row.slot = (rows.map Row.draft).map Draft.slot := by
  rw [List.map_map]
  rfl

theorem unrepeated (rules : Rules κ τ ρ) (actions : List (Action κ τ)) :
    Unrepeated (rules.world actions).store (rules.world actions).transactions := by
  refine Rules.store_induction (fun store transactions _ => Unrepeated store transactions)
    ?_ ?_ ?_ actions
  · constructor
    · exact List.nodup_nil
    · intro tx htx
      cases htx
  · intro earlier moment h hmakes
    constructor
    · rcases hmakes.stores with ⟨_, hsame⟩ | ⟨tx, hopen, _, hcommit, hperm⟩
      · rw [map_slot, hsame, ← map_slot]
        exact h.committed
      · have hnew := Store.checkRows_ok (Store.commit_eq_ok hcommit).2.1
        rw [(hperm.map Row.slot).nodup_iff, List.map_append, List.nodup_append]
        refine ⟨h.committed, h.staged tx hopen, ?_⟩
        rintro slot hold _ hadded rfl
        obtain ⟨row, hrow, rfl⟩ := List.mem_map.1 hadded
        exact hnew row hrow hold
    · intro tx htx
      cases hmakes.writes htx with
      | kept hopen => exact h.staged tx hopen
      | begun => exact List.nodup_nil
      | staged row hopen hcall hnew =>
          rw [List.map_append, List.nodup_append]
          refine ⟨h.staged _ hopen, List.pairwise_singleton _ _, ?_⟩
          rintro slot hold _ hadded rfl
          rw [List.mem_singleton.1 hadded] at hold
          exact hnew hold
      | @saved before pending hopen => exact h.staged before hopen
  · intro _ store transactions _ h
    exact ⟨List.nodup_nil, h.staged⟩

end World

end Courier
