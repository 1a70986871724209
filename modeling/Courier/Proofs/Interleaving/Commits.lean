import Courier.Proofs.Interleaving.Faultless
import Courier.Proofs.Interleaving.Transactions
import Courier.Proofs.Store.Documents
/-
Commits.  A transaction keeps its writes to itself until it is committed.  Then the versions of its
documents and the messages that it staged decide, and nothing else does, whether all of its writes
take place or none.
-/
namespace Courier

variable {κ τ ρ : Type}

namespace Store

/-- Every document is at the version that the transaction's first write of it was based on, and no
staged message is there yet. -/
structure Accepts (store : Store) (tx : Transaction) : Prop where
  documents : ∀ collection key base, tx.base? collection key = some base →
    store.documentVersion collection key = base
  rows : ∀ row ∈ tx.rows, store.hasMessage row.messageId row.delivery = false

/-- The store has a transaction's writes in addition, and nothing else has changed. -/
structure Adds (store : Store) (tx : Transaction) (committed : Store) : Prop where
  rows : committed.rows.Perm (store.rows ++ tx.rows)
  staged : ∀ row ∈ tx.rows, committed.get? row.id = some row
  kept : ∀ id, (∀ row ∈ tx.rows, row.id ≠ id) → committed.get? id = store.get? id
  written : ∀ collection key last, (tx.writes collection key).getLast? = some last →
    committed.document? collection key = some last.document ∧
      last.document.version =
        store.documentVersion collection key + (tx.writes collection key).length
  unwritten : ∀ collection key, tx.writes collection key = [] →
    committed.document? collection key = store.document? collection key
  issued : committed.issued = store.issued
  refusesDocuments : committed.refusesDocuments = store.refusesDocuments

theorem commit_ok_iff {tx : Transaction} (h : tx.Built) (store : Store) :
    (∃ committed, store.commit tx = .ok committed) ↔ store.Accepts tx := by
  constructor
  · rintro ⟨committed, hcommit⟩
    obtain ⟨⟨hdocuments, hrows⟩, _⟩ := commit_iff.1 hcommit
    exact ⟨(checkDocuments_iff h store).1 hdocuments, (checkRows_iff store tx.rows).1 hrows⟩
  · rintro ⟨hdocuments, hrows⟩
    exact ⟨_, commit_iff.2 ⟨⟨(checkDocuments_iff h store).2 hdocuments,
      (checkRows_iff store tx.rows).2 hrows⟩, rfl⟩⟩

/-- After a commit everybody finds the documents as the transaction has seen them. -/
theorem document?_commit {store committed : Store} {tx : Transaction}
    (h : store.commit tx = .ok committed) (collection key : String) :
    committed.document? collection key =
      (tx.document? collection key).or (store.document? collection key) := by
  obtain ⟨_, rfl⟩ := commit_iff.1 h
  refine (find?_foldl_putDocument _ _ collection key).trans ?_
  rw [← List.map_reverse]
  rfl

theorem get?_commit {store committed : Store} {tx : Transaction}
    (hperm : committed.rows.Perm (store.rows ++ tx.rows)) (hdistinct : DistinctNumbers committed.rows)
    {id : RowId} (hid : ∀ row ∈ tx.rows, row.id ≠ id) : committed.get? id = store.get? id := by
  have hboth : DistinctNumbers (store.rows ++ tx.rows) := hdistinct.of_perm hperm
  have hold : DistinctNumbers store.rows := (List.pairwise_append.1 hboth).1
  refine Option.ext fun row => ?_
  rw [get?_eq_some_iff hdistinct, get?_eq_some_iff hold, hperm.mem_iff, List.mem_append]
  constructor
  · rintro ⟨hthere | hnew, hsame⟩
    · exact ⟨hthere, hsame⟩
    · exact absurd hsame (hid row hnew)
  · rintro ⟨hthere, hsame⟩
    exact ⟨Or.inl hthere, hsame⟩

theorem adds_of_commit {store committed : Store} {tx : Transaction} (h : tx.Built)
    (hcommit : store.commit tx = .ok committed)
    (hperm : committed.rows.Perm (store.rows ++ tx.rows))
    (hdistinct : DistinctNumbers committed.rows) : store.Adds tx committed where
  rows := hperm
  staged row hrow :=
    (get?_eq_some_iff hdistinct).2 ⟨hperm.mem_iff.2 (List.mem_append_right _ hrow), rfl⟩
  kept id hid := get?_commit hperm hdistinct hid
  written collection key last hlast := by
    have hdocument := document?_commit hcommit collection key
    cases h.wrote collection key with
    | never hwrites hbase hnone =>
        rw [hwrites] at hlast
        cases hlast
    | last other base hwrites hbase hsome hversion =>
        obtain rfl := Option.some.inj (hwrites.symm.trans hlast)
        rw [hsome, Option.some_or] at hdocument
        refine ⟨hdocument, ?_⟩
        rw [((commit_ok_iff h store).1 ⟨committed, hcommit⟩).documents collection key base hbase]
        exact hversion
  unwritten collection key hnone := by
    have hdocument := document?_commit hcommit collection key
    cases h.wrote collection key with
    | never hwrites hbase hnothing => rw [hdocument, hnothing, Option.none_or]
    | last other base hwrites hbase hsome hversion =>
        rw [hnone] at hwrites
        cases hwrites
  issued := (commit_rows hcommit).2
  refusesDocuments := by
    obtain ⟨_, rfl⟩ := commit_iff.1 hcommit
    rfl

end Store

/-- The answer depends on the store only through what was done. -/
theorem Manner.onStore_congr {α : Type} (manner : Manner) (store other : Store)
    {done others : Except StoreError α × Store} (h : done.1 = others.1) :
    (manner.onStore store done).1 = (manner.onStore other others).1 := by
  unfold onStore
  split
  · exact h
  · rfl
  · rfl

theorem Store.checkDocuments_issued (store : Store) (issued : Nat) (written : List Document)
    (pending : List PendingDocument) :
    Store.checkDocuments { store with issued := issued } written pending =
      store.checkDocuments written pending := by
  induction pending generalizing written with
  | nil => rfl
  | cons head rest ih =>
      simp only [checkDocuments, ih]
      rfl

theorem Store.checkRows_issued (store : Store) (issued : Nat) (rows : List Row) :
    Store.checkRows { store with issued := issued } rows = store.checkRows rows := by
  induction rows with
  | nil => rfl
  | cons head rest ih =>
      simp only [checkRows, ih]
      rfl

/-- The numbers that were handed out do not show, except to whoever takes the next one. -/
theorem Store.respond_issued (store : Store) (issued : Nat) (manner : Manner) {call : Call κ}
    (hstage : call.draft? = none) :
    (Store.respond { store with issued := issued } manner call).1 =
      (store.respond manner call).1 := by
  cases call with
  | swap change =>
      refine manner.onStore_congr _ _ ?_
      change (Store.swap { store with issued := issued } change).2 = (store.swap change).2
      simp only [swap, get?]
      cases store.rows.find? (·.id == change.id) with
      | none => rfl
      | some row => cases hfits : change.fits row <;> simp [hfits]
  | stage tx draft => cases hstage
  | commit tx =>
      refine manner.onStore_congr _ _ ?_
      simp only [commitOrLeave, Store.commit, checkDocuments_issued, checkRows_issued]
      cases store.checkDocuments [] tx.documents with
      | error error => rfl
      | ok _ => cases store.checkRows tx.rows <;> rfl
  | begin => exact manner.onStore_congr _ _ rfl
  | get id => exact manner.onStore_congr _ _ rfl
  | find filter => exact manner.onStore_congr _ _ rfl
  | due query => exact manner.onStore_congr _ _ rfl
  | outgoing id => exact manner.onStore_congr _ _ rfl
  | document collection key => exact manner.onStore_congr _ _ rfl
  | documentIn tx collection key => exact manner.onStore_congr _ _ rfl
  | saveDocument tx collection key body expected => exact manner.onStore_congr _ _ rfl
  | publish routingKey envelope => rfl
  | handle command => rfl
  | now => rfl
  | mint => rfl
  | count sample => rfl
  | samples => rfl

/-- A message or a document was not accepted into a transaction. -/
def Call.refuses : (call : Call κ) → call.Answer → Bool
  | .stage _ _, Except.error _ => true
  | .saveDocument _ _ _ _ _, Except.error _ => true
  | _, _ => false

def Moment.refuses (moment : Moment κ τ) : Bool :=
  moment.call.refuses moment.answer

structure Moment.Whole (moment : Moment κ τ) : Prop where
  /-- A commit succeeds exactly if nothing stands against it. -/
  decided : ∀ tx, moment.call = .commit tx →
    (moment.commits = true ↔ moment.before.Accepts tx)
  added : ∀ tx, moment.call = .commit tx → moment.commits = true →
    moment.before.Adds tx moment.after
  dropped : ∀ tx, moment.call = .commit tx → moment.commits = false →
    moment.after = moment.before
  /-- Nobody can see what is not committed yet. -/
  unseen : moment.commits = false → moment.call.isSwap = false →
    ∀ (manner : Manner) (call : Call κ), call.draft? = none →
      (moment.after.respond manner call).1 = (moment.before.respond manner call).1
  /-- What enters a transaction is what it was given. -/
  entered : moment.call.Plausible moment.answer
  /-- What is refused leaves the transaction as it was. -/
  refused : moment.refuses = true →
    moment.after = moment.before ∧ ∀ opened, moment.call.leaves opened moment.answer = opened

/-- All that ever happened to transactions was done as a whole. -/
def World.Whole (world : World κ τ ρ) : Prop :=
  ∀ moment ∈ world.history, moment.Whole

/-- Every open transaction was put together by calls in it. -/
theorem World.built (rules : Rules κ τ ρ) (actions : List (Action κ τ)) :
    ∀ tx ∈ (rules.world actions).transactions, tx.Built := by
  refine Rules.history_induction (fun transactions _ => ∀ tx ∈ transactions, tx.Built) ?_ ?_ actions
  · intro tx htx
    cases htx
  · intro earlier moment h hmakes tx htx
    cases hmakes.writes htx with
    | kept hopen => exact h tx hopen
    | begun => exact .empty
    | staged row hopen _ _ => exact (h _ hopen).staged row
    | saved pending hopen hnext hlast => exact (h _ hopen).written pending hnext hlast

/-- A store that does as it is asked commits a transaction and says so, or leaves things alone. -/
theorem Moment.Faithful.committed {moment : Moment κ τ} (h : moment.Faithful) {tx : Transaction}
    (hcall : moment.call = .commit tx) :
    (moment.before.commit tx = .ok moment.after ∧ moment.commits = true) ∨
      ((∃ error, moment.before.commit tx = .error error) ∧ moment.commits = false ∧
        moment.after = moment.before) := by
  obtain ⟨worker, call, answer, before, after⟩ := moment
  change call = _ at hcall
  subst hcall
  obtain ⟨manner, hmishap, hresponse⟩ := h
  have hdone : (answer, after) = before.commitOrLeave tx :=
    hresponse.trans (Manner.onStore_of_none hmishap ..)
  unfold Store.commitOrLeave at hdone
  cases hcommit : before.commit tx with
  | ok committed =>
      rw [hcommit] at hdone
      obtain ⟨rfl, rfl⟩ := Prod.mk.inj hdone
      exact Or.inl ⟨rfl, rfl⟩
  | error error =>
      rw [hcommit] at hdone
      obtain ⟨rfl, rfl⟩ := Prod.mk.inj hdone
      exact Or.inr ⟨⟨error, rfl⟩, rfl, rfl⟩

/-- A store that does as it is asked does nothing when it refuses. -/
theorem Moment.Faithful.refused {moment : Moment κ τ} (h : moment.Faithful)
    (hrefuses : moment.refuses = true) :
    moment.after = moment.before ∧ ∀ opened, moment.call.leaves opened moment.answer = opened := by
  obtain ⟨worker, call, answer, before, after⟩ := moment
  obtain ⟨manner, hmishap, hresponse⟩ := h
  cases call with
  | stage tx draft =>
      cases answer with
      | ok value => cases hrefuses
      | error error =>
          have hdone : before.respond manner (.stage tx draft : Call κ) =
              (before.stage tx draft manner.clock).swap := Manner.onStore_of_none hmishap ..
          rw [hdone] at hresponse
          rcases before.stage_cases tx draft manner.clock with ⟨_, hstage⟩ | hstage
          · rw [hstage] at hresponse
            exact ⟨(Prod.mk.inj hresponse).2, fun _ => rfl⟩
          · rw [hstage] at hresponse
            cases hresponse
  | saveDocument tx collection key body expected =>
      cases answer with
      | ok value => cases hrefuses
      | error error =>
          have hdone : before.respond manner
              (.saveDocument tx collection key body expected : Call κ) = (before.saveDocument tx
                collection key body expected manner.clock, before) :=
            Manner.onStore_of_none hmishap ..
          rw [hdone] at hresponse
          exact ⟨(Prod.mk.inj hresponse).2, fun _ => rfl⟩
  | _ => cases hrefuses

namespace Rules

variable {rules : Rules κ τ ρ} {earlier : List (Action κ τ)} {moment : Moment κ τ}

/-- Without a change or a commit, a number may be handed out, and that is all. -/
theorem Makes.issued_only (h : rules.faultless.Makes (rules.faultless.world earlier) moment)
    (hcommits : moment.commits = false) (hswap : moment.call.isSwap = false) :
    ∃ issued, moment.after = { moment.before with issued := issued } := by
  cases h.effect with
  | quiet hstore _ _ => exact ⟨moment.before.issued, hstore⟩
  | changed change row hcall _ _ _ _ _ =>
      rw [hcall] at hswap
      cases hswap
  | staged draft now hafter _ _ => exact ⟨_, hafter⟩
  | committed tx _ _ _ _ hcall =>
      rcases h.faithful.committed hcall with ⟨_, hdone⟩ | ⟨_, _, hstore⟩
      · rw [hcommits] at hdone
        cases hdone
      · exact ⟨moment.before.issued, hstore⟩

theorem Makes.whole (h : rules.faultless.Makes (rules.faultless.world earlier) moment) :
    moment.Whole where
  decided tx hcall := by
    have hbuilt := World.built rules.faultless earlier tx
      ((rules.faultless.world earlier).tx_mem_of_mayCall h.may (by rw [hcall]; rfl))
    rw [← Store.commit_ok_iff hbuilt]
    rcases h.faithful.committed hcall with ⟨hcommit, hcommits⟩ | ⟨⟨error, hcommit⟩, hcommits, _⟩
    · exact iff_of_true hcommits ⟨moment.after, hcommit⟩
    · refine iff_of_false (by simp [hcommits]) ?_
      rintro ⟨committed, hdone⟩
      rw [hcommit] at hdone
      cases hdone
  added tx hcall hcommits := by
    have hopen := (rules.faultless.world earlier).tx_mem_of_mayCall h.may
      (show moment.call.transaction? = some tx by rw [hcall]; rfl)
    have hbuilt := World.built rules.faultless earlier tx hopen
    rcases h.faithful.committed hcall with ⟨hcommit, _⟩ | ⟨_, hfailed, _⟩
    · have hsame := hcommit
      rw [h.before] at hsame
      have hperm := (World.sound rules.faultless earlier).committed_perm hopen hsame
      rw [← h.before] at hperm
      exact Store.adds_of_commit hbuilt hcommit hperm h.sound_after.committed_distinct
    · rw [hcommits] at hfailed
      cases hfailed
  dropped tx hcall hcommits := by
    rcases h.faithful.committed hcall with ⟨_, hdone⟩ | ⟨_, _, hstore⟩
    · rw [hcommits] at hdone
      cases hdone
    · exact hstore
  unseen hcommits hswap manner call hstage := by
    obtain ⟨issued, hafter⟩ := h.issued_only hcommits hswap
    rw [hafter]
    exact moment.before.respond_issued issued manner hstage
  entered := h.plausible
  refused hrefuses := h.faithful.refused hrefuses

end Rules

/-- Whoever else writes, and even if the store is cleared in between: a commit is all or nothing,
what decides on it are the documents and messages of the transaction, and before it nothing shows. -/
theorem commits_whole (rules : Rules κ τ ρ) (actions : List (Action κ τ)) :
    (rules.faultless.world actions).Whole := by
  refine Rules.history_induction (fun _ history => ∀ moment ∈ history, moment.Whole) ?_ ?_ actions
  · intro moment hmoment
    cases hmoment
  · intro earlier latest h hmakes moment hmoment
    rcases List.mem_cons.1 hmoment with rfl | hold
    · exact hmakes.whole
    · exact h moment hold

end Courier
