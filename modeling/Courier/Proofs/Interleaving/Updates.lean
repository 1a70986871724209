import Courier.Proofs.Interleaving.Commits
/-
No write of a document is lost.  Reading leaves no trace, so a transaction may be built on a document
that others replace in the meantime; but then it is never committed.  Those that are committed come
one after another, each on top of the one before it.
-/
namespace Courier

variable {κ τ ρ : Type}

/-- The same goings-on around a store that is never cleared. -/
def Rules.lasting (rules : Rules κ τ ρ) : Rules κ τ ρ :=
  { rules with clears := false }

def Call.committed? : (call : Call κ) → call.Answer → Option Transaction
  | .commit tx, Except.ok _ => some tx
  | _, _ => none

def Moment.committed? (moment : Moment κ τ) : Option Transaction :=
  moment.call.committed? moment.answer

def World.committed (world : World κ τ ρ) : List Transaction :=
  world.history.filterMap Moment.committed?

/-- How many writes of a document the call has committed. -/
def Moment.saves (moment : Moment κ τ) (collection key : String) : Nat :=
  moment.committed?.elim 0 fun tx => (tx.writes collection key).length

def savesOf (collection key : String) : List (Moment κ τ) → Nat
  | [] => 0
  | moment :: past => savesOf collection key past + moment.saves collection key

/-- The version that a committed transaction's first write of a document was based on. -/
def Moment.base? (moment : Moment κ τ) (collection key : String) : Option Int :=
  moment.committed?.bind (·.base? collection key)

def versionOf (document : Option Document) : Int :=
  (document.map (·.version)).getD 0

/-- What is left of a document by transactions that are run one after another, given latest first:
each of those that write it is based on what the one before has left. -/
inductive Succession (collection key : String) : List Transaction → Option Document → Prop where
  | start : Succession collection key [] none
  | passed {earlier : List Transaction} {found : Option Document} {tx : Transaction}
      (h : Succession collection key earlier found) (hwrites : tx.writes collection key = []) :
      Succession collection key (tx :: earlier) found
  | wrote {earlier : List Transaction} {found : Option Document} {tx : Transaction}
      {last : PendingDocument} (h : Succession collection key earlier found)
      (hbase : tx.base? collection key = some (versionOf found))
      (hlast : (tx.writes collection key).getLast? = some last) :
      Succession collection key (tx :: earlier) (some last.document)

/-- Make a transaction's writes of documents once more, in one go. -/
def Store.repeatWrites (store : Store) (tx : Transaction) :
    List PendingDocument → Except StoreError Transaction
  | [] => .ok tx
  | pending :: rest => do
      let document := pending.document
      let (written, _) ← store.saveDocument tx document.collection document.key document.body
        pending.expectedVersion document.updatedAt
      store.repeatWrites written rest

/-- The transactions that were committed behave on a document as if they had been run one after
another, in the order of their commits. -/
structure World.Serial (world : World κ τ ρ) (collection key : String) : Prop where
  /-- Every call moves the version on by the number of writes that it commits. -/
  grows : ∀ moment ∈ world.history, moment.after.documentVersion collection key =
    moment.before.documentVersion collection key + moment.saves collection key
  counts : world.store.documentVersion collection key = savesOf collection key world.history
  /-- Of two committed transactions that wrote the document the later one was based on a later
  version. -/
  bases : (world.history.filterMap (·.base? collection key)).Pairwise (· > ·)
  /-- What was read outside of all pending writes is still there, just before a transaction is
  committed that was based on its version. -/
  loaded : ∀ later commit past, world.history = later ++ commit :: past →
    ∀ tx, commit.committed? = some tx →
    ∀ load ∈ past, ∀ reader, load.call = .documentIn reader collection key →
      reader.document? collection key = none →
      tx.base? collection key = some (versionOf load.found?) →
      commit.before.document? collection key = load.found?
  succession : Succession collection key world.committed (world.store.document? collection key)
  /-- Had a transaction made its writes only when it was committed, they would have been the same. -/
  repeated : ∀ moment ∈ world.history, ∀ tx, moment.committed? = some tx →
    moment.before.repeatWrites ⟨tx.rows, []⟩ tx.documents = .ok tx

/-- What a call does to a document: nothing, or it commits a transaction that was based on the document
as it is and leaves its own last write of it. -/
inductive Moment.Updates (moment : Moment κ τ) (collection key : String) : Prop where
  | leaves (hwrites : ∀ tx, moment.committed? = some tx → tx.writes collection key = [])
      (hsame : moment.after.document? collection key = moment.before.document? collection key)
  | writes (tx : Transaction) (last : PendingDocument) (hcommitted : moment.committed? = some tx)
      (hbase : tx.base? collection key = some (moment.before.documentVersion collection key))
      (hlast : (tx.writes collection key).getLast? = some last)
      (hafter : moment.after.document? collection key = some last.document)
      (hversion : last.document.version =
        moment.before.documentVersion collection key + (tx.writes collection key).length)

namespace Store

theorem documentVersion_eq_versionOf (store : Store) (collection key : String) :
    store.documentVersion collection key = versionOf (store.document? collection key) :=
  rfl

theorem repeatWrites_concat {store : Store} {tx between written : Transaction}
    {earlier : List PendingDocument} {pending : PendingDocument} {document : Document}
    (hearlier : store.repeatWrites tx earlier = .ok between)
    (hpending : store.saveDocument between pending.document.collection pending.document.key
      pending.document.body pending.expectedVersion pending.document.updatedAt =
        .ok (written, document)) :
    store.repeatWrites tx (earlier ++ [pending]) = .ok written := by
  induction earlier generalizing tx with
  | nil =>
      obtain rfl := Except.ok.inj hearlier
      simp only [List.nil_append, repeatWrites, hpending]
      rfl
  | cons first rest ih =>
      simp only [List.cons_append, repeatWrites] at hearlier ⊢
      cases hfirst : store.saveDocument tx first.document.collection first.document.key
          first.document.body first.expectedVersion first.document.updatedAt with
      | error error =>
          rw [hfirst] at hearlier
          cases hearlier
      | ok saved =>
          rw [hfirst] at hearlier
          exact ih hearlier

/-- A write is accepted again over the version that it was based on. -/
theorem saveDocument_again {store : Store} {tx : Transaction} {pending : PendingDocument}
    (hopen : store.refusesDocuments = false)
    (hnext : pending.document.version = pending.expectedVersion + 1)
    (hcurrent : (tx.document? pending.document.collection pending.document.key).elim
      (store.documentVersion pending.document.collection pending.document.key) (·.version) =
        pending.expectedVersion) :
    store.saveDocument tx pending.document.collection pending.document.key pending.document.body
      pending.expectedVersion pending.document.updatedAt =
        .ok (tx.write pending, pending.document) := by
  obtain ⟨expected, collection, key, version, body, updatedAt⟩ := pending
  simp only at hnext hcurrent ⊢
  subst hnext
  cases hlast : tx.document? collection key with
  | none =>
      rw [hlast] at hcurrent
      rw [saveDocument, hopen, hlast]
      exact if_pos hcurrent
  | some last =>
      rw [hlast] at hcurrent
      rw [saveDocument, hopen, hlast]
      exact if_pos hcurrent

/-- A store that accepts a transaction would accept its writes one by one. -/
theorem repeatWrites_of_accepts {store : Store} {tx : Transaction} (h : tx.Built)
    (hopen : store.refusesDocuments = false)
    (hbases : ∀ collection key base, tx.base? collection key = some base →
      store.documentVersion collection key = base) (rows : List Row) :
    store.repeatWrites ⟨rows, []⟩ tx.documents = .ok ⟨rows, tx.documents⟩ := by
  induction h with
  | empty => rfl
  | staged h row ih => exact ih hbases
  | @written tx h pending hnext hlast ih =>
      have hbefore : ∀ collection key base, tx.base? collection key = some base →
          store.documentVersion collection key = base := by
        intro collection key base hbase
        refine hbases collection key base ?_
        rw [Transaction.base?_write, hbase, Option.some_or]
      refine repeatWrites_concat (ih hbefore) (saveDocument_again hopen hnext ?_)
      change (tx.document? pending.document.collection pending.document.key).elim _ _ = _
      cases h.wrote pending.document.collection pending.document.key with
      | never hwrites hbase hnone =>
          rw [hnone]
          refine hbases _ _ _ ?_
          rw [Transaction.base?_write, hbase, Transaction.isAt_self]
          rfl
      | last last base hwrites hbase hsome hversion =>
          rw [hsome]
          exact hlast _ hsome

end Store

/-- A store that does as it is asked shows the document as the reader's transaction has it. -/
theorem Moment.Faithful.found?_eq {moment : Moment κ τ} (h : moment.Faithful) {reader : Transaction}
    {collection key : String} (hcall : moment.call = .documentIn reader collection key) :
    moment.found? = moment.before.documentIn? reader collection key := by
  obtain ⟨worker, call, answer, before, after⟩ := moment
  change call = _ at hcall
  subst hcall
  obtain ⟨manner, hmishap, hresponse⟩ := h
  have hdone : before.respond manner (.documentIn reader collection key : Call κ) =
      (.ok (before.documentIn? reader collection key), before) := Manner.onStore_of_none hmishap ..
  rw [hdone] at hresponse
  obtain ⟨rfl, _⟩ := Prod.mk.inj hresponse
  rfl

theorem Moment.committed?_eq_some {moment : Moment κ τ} {tx : Transaction} :
    moment.committed? = some tx ↔ moment.call = .commit tx ∧ moment.commits = true := by
  obtain ⟨worker, call, answer, before, after⟩ := moment
  cases call with
  | commit other =>
      match answer with
      | .ok value => simp [committed?, commits, Call.committed?, Call.commits]
      | .error error => simp [committed?, commits, Call.committed?, Call.commits]
  | _ => simp [committed?, commits, Call.committed?, Call.commits]

namespace Rules

variable {rules : Rules κ τ ρ} {earlier : List (Action κ τ)} {moment : Moment κ τ}

theorem Makes.of_committed (h : rules.faultless.Makes (rules.faultless.world earlier) moment)
    {tx : Transaction} (hcommitted : moment.committed? = some tx) :
    tx.Built ∧ moment.before.Accepts tx ∧ moment.before.Adds tx moment.after := by
  obtain ⟨hcall, hcommits⟩ := Moment.committed?_eq_some.1 hcommitted
  have hopen := (rules.faultless.world earlier).tx_mem_of_mayCall h.may
    (show moment.call.transaction? = some tx by rw [hcall]; rfl)
  exact ⟨World.built rules.faultless earlier tx hopen, (h.whole.decided tx hcall).1 hcommits,
    h.whole.added tx hcall hcommits⟩

theorem Makes.documents_same (h : rules.faultless.Makes (rules.faultless.world earlier) moment)
    (hnone : moment.committed? = none) : moment.after.documents = moment.before.documents := by
  rcases h.stores with ⟨hsame, _⟩ | ⟨tx, _, hcall, hcommit, _⟩
  · rw [hsame, h.before]
  · rcases h.faithful.committed hcall with ⟨_, hcommits⟩ | ⟨⟨error, hfailed⟩, _, _⟩
    · rw [Moment.committed?_eq_some.2 ⟨hcall, hcommits⟩] at hnone
      cases hnone
    · rw [h.before, hcommit] at hfailed
      cases hfailed

/-- What a call does to a document. -/
theorem Makes.updates (h : rules.faultless.Makes (rules.faultless.world earlier) moment)
    (collection key : String) : moment.Updates collection key := by
  cases hcommitted : moment.committed? with
  | none =>
      refine .leaves (fun tx htx => ?_) (congrArg (List.find? _) (h.documents_same hcommitted))
      rw [hcommitted] at htx
      cases htx
  | some tx =>
      obtain ⟨hbuilt, haccepts, hadds⟩ := h.of_committed hcommitted
      cases hbuilt.wrote collection key with
      | never hwrites hbase hnone =>
          refine .leaves (fun other hother => ?_) (hadds.unwritten collection key hwrites)
          obtain rfl := Option.some.inj (hcommitted.symm.trans hother)
          exact hwrites
      | last last base hwrites hbase hsome hversion =>
          obtain ⟨hafter, hcounts⟩ := hadds.written collection key last hwrites
          obtain rfl := haccepts.documents collection key base hbase
          exact .writes tx last hcommitted hbase hwrites hafter hcounts

theorem Makes.refusesDocuments_same {world : World κ τ ρ} (h : rules.Makes world moment) :
    moment.after.refusesDocuments = moment.before.refusesDocuments := by
  cases h.effect with
  | quiet hstore _ _ => rw [hstore]
  | changed change row _ _ _ hafter _ _ => rw [hafter]
  | staged draft now hafter _ _ => rw [hafter]
  | committed tx _ hcommit _ _ _ =>
      obtain ⟨_, hafter⟩ := Store.commit_iff.1 hcommit
      rw [hafter]

end Rules

section updates

variable {moment : Moment κ τ} {history : List (Moment κ τ)} {collection key : String}

/-- A call takes the version on by the writes that it commits, and leaves a document alone if there
are none. -/
theorem Moment.Updates.moved (h : moment.Updates collection key) :
    moment.after.documentVersion collection key =
        moment.before.documentVersion collection key + moment.saves collection key ∧
      (moment.saves collection key = 0 →
        moment.after.document? collection key = moment.before.document? collection key) := by
  cases h with
  | leaves hwrites hsame =>
      have hnone : moment.saves collection key = 0 := by
        unfold saves
        cases hcommitted : moment.committed? with
        | none => rfl
        | some tx =>
            rw [Option.elim_some, hwrites tx hcommitted]
            rfl
      refine ⟨?_, fun _ => hsame⟩
      rw [hnone, Store.documentVersion_eq_versionOf, hsame]
      exact (Int.add_zero _).symm
  | writes tx last hcommitted hbase hlast hafter hversion =>
      rw [saves, hcommitted, Option.elim_some]
      constructor
      · rw [Store.documentVersion_eq_versionOf, hafter]
        exact hversion
      · intro hnone
        rw [List.length_eq_zero_iff.1 hnone] at hlast
        cases hlast

/-- A transaction that is committed was based on the latest version, which it leaves behind. -/
theorem Moment.Updates.base_cases (h : moment.Updates collection key) :
    moment.base? collection key = none ∨
      moment.base? collection key = some (moment.before.documentVersion collection key) ∧
        moment.before.documentVersion collection key <
          moment.after.documentVersion collection key := by
  have hmoved := h.moved
  cases h with
  | leaves hwrites hsame =>
      refine Or.inl ?_
      unfold base?
      cases hcommitted : moment.committed? with
      | none => rfl
      | some tx =>
          rw [Option.bind_some, Transaction.base?, hwrites tx hcommitted]
          rfl
  | writes tx last hcommitted hbase hlast hafter hversion =>
      refine Or.inr ⟨?_, ?_⟩
      · rw [base?, hcommitted, Option.bind_some, hbase]
      · have hsaves : moment.saves collection key = (tx.writes collection key).length := by
          rw [saves, hcommitted, Option.elim_some]
        have hsome : 0 < (tx.writes collection key).length := by
          refine List.length_pos_iff.2 fun hnone => ?_
          rw [hnone] at hlast
          cases hlast
        omega

theorem Moment.Updates.succession (h : moment.Updates collection key)
    (hearlier : Succession collection key (history.filterMap committed?)
      (moment.before.document? collection key)) :
    Succession collection key ((moment :: history).filterMap committed?)
      (moment.after.document? collection key) := by
  cases h with
  | leaves hwrites hsame =>
      rw [hsame]
      cases hcommitted : moment.committed? with
      | none =>
          rw [List.filterMap_cons_none hcommitted]
          exact hearlier
      | some tx =>
          rw [List.filterMap_cons_some hcommitted]
          exact .passed hearlier (hwrites tx hcommitted)
  | writes tx last hcommitted hbase hlast hafter hversion =>
      rw [List.filterMap_cons_some hcommitted, hafter]
      exact .wrote hearlier hbase hlast

end updates

/-- Where a document stands after all that has happened. -/
structure Store.Follows (store : Store) (history : List (Moment κ τ)) (collection key : String) :
    Prop where
  grows : ∀ moment ∈ history, moment.after.documentVersion collection key =
    moment.before.documentVersion collection key + moment.saves collection key
  counts : store.documentVersion collection key = savesOf collection key history
  /-- Whoever has found the document at its present version has found the present one. -/
  kept : ∀ moment ∈ history,
    moment.before.documentVersion collection key ≤ store.documentVersion collection key ∧
      (moment.before.documentVersion collection key = store.documentVersion collection key →
        moment.before.document? collection key = store.document? collection key)
  below : ∀ base ∈ history.filterMap (·.base? collection key),
    base < store.documentVersion collection key
  bases : (history.filterMap (·.base? collection key)).Pairwise (· > ·)
  succession : Succession collection key (history.filterMap Moment.committed?)
    (store.document? collection key)
  repeated : ∀ moment ∈ history, ∀ tx, moment.committed? = some tx →
    moment.before.repeatWrites ⟨tx.rows, []⟩ tx.documents = .ok tx
  accepting : store.refusesDocuments = false

section follows

variable {rules : Rules κ τ ρ} {earlier : List (Action κ τ)} {moment : Moment κ τ}
  {history : List (Moment κ τ)} {collection key : String}

/-- Looking back from after a call. -/
theorem Store.Follows.kept_after (h : moment.before.Follows history collection key)
    (hupdates : moment.Updates collection key) : ∀ other ∈ moment :: history,
      other.before.documentVersion collection key ≤ moment.after.documentVersion collection key ∧
        (other.before.documentVersion collection key =
            moment.after.documentVersion collection key →
          other.before.document? collection key = moment.after.document? collection key) := by
  obtain ⟨hversion, hsame⟩ := hupdates.moved
  intro other hother
  rcases List.mem_cons.1 hother with rfl | hold
  · refine ⟨by omega, fun heq => (hsame ?_).symm⟩
    omega
  · obtain ⟨hle, hequal⟩ := h.kept other hold
    refine ⟨by omega, fun heq => ?_⟩
    rw [hsame (by omega), hequal (by omega)]

theorem Store.Follows.bases_after (h : moment.before.Follows history collection key)
    (hupdates : moment.Updates collection key) :
    (∀ base ∈ (moment :: history).filterMap (·.base? collection key),
      base < moment.after.documentVersion collection key) ∧
      ((moment :: history).filterMap (·.base? collection key)).Pairwise (· > ·) := by
  have hversion := hupdates.moved.1
  have hbelow := h.below
  rcases hupdates.base_cases with hnone | ⟨hsome, hlater⟩
  · have hunchanged : (moment :: history).filterMap (·.base? collection key) =
        history.filterMap (·.base? collection key) := List.filterMap_cons_none hnone
    rw [hunchanged]
    refine ⟨fun base hbase => ?_, h.bases⟩
    have hle := hbelow base hbase
    omega
  · have hone : (moment :: history).filterMap (·.base? collection key) =
        moment.before.documentVersion collection key ::
          history.filterMap (·.base? collection key) := List.filterMap_cons_some hsome
    rw [hone]
    refine ⟨fun base hbase => ?_, List.pairwise_cons.2 ⟨hbelow, h.bases⟩⟩
    rcases List.mem_cons.1 hbase with rfl | hold
    · exact hlater
    · have hle := hbelow base hold
      omega

theorem Store.Follows.step (h : moment.before.Follows history collection key)
    (hmakes : rules.faultless.Makes (rules.faultless.world earlier) moment) :
    moment.after.Follows (moment :: history) collection key where
  grows := List.forall_mem_cons.2 ⟨(hmakes.updates collection key).moved.1, h.grows⟩
  counts := by
    rw [(hmakes.updates collection key).moved.1, h.counts, savesOf, Int.natCast_add]
  kept := h.kept_after (hmakes.updates collection key)
  below := (h.bases_after (hmakes.updates collection key)).1
  bases := (h.bases_after (hmakes.updates collection key)).2
  succession := (hmakes.updates collection key).succession h.succession
  repeated := by
    refine List.forall_mem_cons.2 ⟨fun tx htx => ?_, h.repeated⟩
    obtain ⟨hbuilt, haccepts, _⟩ := hmakes.of_committed htx
    exact Store.repeatWrites_of_accepts hbuilt h.accepting haccepts.documents tx.rows
  accepting := hmakes.refusesDocuments_same.trans h.accepting

theorem World.follows (rules : Rules κ τ ρ) (actions : List (Action κ τ)) (collection key : String) :
    (rules.lasting.faultless.world actions).store.Follows
      (rules.lasting.faultless.world actions).history collection key := by
  refine Rules.call_induction rfl (fun store _ history => store.Follows history collection key)
    ?_ ?_ actions
  · constructor
    · intro moment hmoment
      cases hmoment
    · rfl
    · intro moment hmoment
      cases hmoment
    · intro base hbase
      cases hbase
    · exact List.Pairwise.nil
    · exact .start
    · intro moment hmoment
      cases hmoment
    · rfl
  · intro earlier moment h hmakes
    rw [← hmakes.before] at h
    exact h.step hmakes

end follows

/-- However transactions are interleaved around a store that is not cleared, none of those that are
committed has lost a write of another one. -/
theorem updates_serial (rules : Rules κ τ ρ) (actions : List (Action κ τ)) (collection key : String) :
    (rules.lasting.faultless.world actions).Serial collection key where
  grows := (World.follows rules actions collection key).grows
  counts := (World.follows rules actions collection key).counts
  bases := (World.follows rules actions collection key).bases
  loaded later commit past hhistory tx hcommitted load hload reader hcall hreader hbase := by
    obtain ⟨earlier, rfl, hmakes⟩ := World.made_earlier rfl actions hhistory
    have hkept := (World.follows rules earlier collection key).kept load hload
    have hfound : load.found? = load.before.document? collection key := by
      rw [((rules.lasting.faultless_world earlier).2 load hload).found?_eq hcall, Store.documentIn?,
        hreader]
    have hcurrent := (hmakes.of_committed hcommitted).2.1.documents collection key _ hbase
    rw [hmakes.before] at hcurrent
    rw [hmakes.before, hfound]
    refine (hkept.2 ?_).symm
    rw [hcurrent, hfound]
    rfl
  succession := (World.follows rules actions collection key).succession
  repeated := (World.follows rules actions collection key).repeated

end Courier
