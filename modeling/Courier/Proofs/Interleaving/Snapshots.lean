import Courier.Proofs.Interleaving.World
import Courier.Proofs.Store.Rows
import Mathlib.Data.List.Perm.Subperm
/-
What single calls do to a store, and what a row that was handed out once says about the store later
on: a row with its number is at least as far in its versions, and at the same version it is the same
row in every field.
-/
namespace Courier

variable {κ τ ρ : Type}

theorem Manner.onStore_cases {α : Type} (manner : Manner) (store : Store)
    (done : Except StoreError α × Store) :
    manner.onStore store done = done ∨
      ∃ error, manner.onStore store done = (.error error, store) ∨
        manner.onStore store done = (.error error, done.2) := by
  unfold onStore
  split
  · exact Or.inl rfl
  · exact Or.inr ⟨_, Or.inl rfl⟩
  · exact Or.inr ⟨_, Or.inr rfl⟩

/-- Whoever is answered without an error is answered by what was done. -/
theorem Manner.onStore_eq_of_ok {α : Type} {manner : Manner} {store : Store}
    {done : Except StoreError α × Store} {value : α}
    (h : (manner.onStore store done).1 = .ok value) : manner.onStore store done = done := by
  rcases manner.onStore_cases store done with heq | ⟨error, heq | heq⟩
  · exact heq
  · rw [heq] at h
    cases h
  · rw [heq] at h
    cases h

/-- An error that is no mishap is what was done. -/
theorem Manner.onStore_own {α : Type} {manner : Manner} {store : Store}
    {done : Except StoreError α × Store} {error : StoreError}
    (h : (manner.onStore store done).1 = .error error)
    (hrefused : manner.mishap ≠ some (.refused error)) (hlost : manner.mishap ≠ some (.lost error)) :
    done.1 = .error error := by
  unfold onStore at h
  split at h
  · exact h
  · rename_i given hmishap
    cases h
    exact absurd hmishap hrefused
  · rename_i given hmishap
    cases h
    exact absurd hmishap hlost

/-- What is so of every failure and of what was done is so of the answer. -/
theorem Manner.onStore_answer {α : Type} (manner : Manner) (store : Store)
    {done : Except StoreError α × Store} (holds : Except StoreError α → Prop)
    (herror : ∀ error, holds (.error error)) (hdone : holds done.1) :
    holds (manner.onStore store done).1 := by
  rcases manner.onStore_cases store done with heq | ⟨error, heq | heq⟩
  · rw [heq]
    exact hdone
  · rw [heq]
    exact herror error
  · rw [heq]
    exact herror error

/-- A call that only looks at the store is answered as it should be or fails. -/
theorem Manner.onStore_look {α : Type} (manner : Manner) (store : Store)
    (answer : Except StoreError α) :
    manner.onStore store (answer, store) = (answer, store) ∨
      ∃ error, manner.onStore store (answer, store) = (.error error, store) := by
  rcases manner.onStore_cases store (answer, store) with h | ⟨error, h | h⟩
  · exact Or.inl h
  · exact Or.inr ⟨error, h⟩
  · exact Or.inr ⟨error, h⟩

abbrev stagedRows (transactions : List Transaction) : List Row :=
  transactions.flatMap (·.rows)

/-- What a call can do to the store, to the rows staged in the open transactions, and show. -/
inductive Moment.Effect (opened : List Transaction) (moment : Moment κ τ) : Prop where
  | quiet (hstore : moment.after = moment.before)
      (hshown : ∀ row ∈ moment.shown, row ∈ moment.before.rows)
      (hstaged : (stagedRows (moment.call.leaves opened moment.answer)).Subperm
        (stagedRows opened))
  | changed (change : Change) (row : Row) (hcall : moment.call = .swap change)
      (hrow : moment.before.get? change.id = some row) (hfits : change.fits row = true)
      (hafter : moment.after =
        { moment.before with rows := Store.changeRow moment.before.rows (row.apply change) })
      (hshown : ∀ seen ∈ moment.shown, seen = row.apply change)
      (hstaged : moment.call.leaves opened moment.answer = opened)
  | staged (draft : Draft) (now : Instant)
      (hafter : moment.after = { moment.before with issued := moment.before.issued + 1 })
      (hshown : ∀ seen ∈ moment.shown, seen = Row.fresh ⟨moment.before.issued + 1⟩ draft now)
      (hstaged : (stagedRows (moment.call.leaves opened moment.answer)).Subperm
        (Row.fresh ⟨moment.before.issued + 1⟩ draft now :: stagedRows opened))
  | committed (tx : Transaction) (hopen : tx ∈ opened)
      (hcommit : moment.before.commit tx = .ok moment.after) (hshown : moment.shown = [])
      (hleaves : moment.call.leaves opened moment.answer = opened.erase tx)
      (hcall : moment.call = .commit tx)

/-- The staged rows, with those of one transaction in front. -/
theorem stagedRows_perm {opened : List Transaction} {tx : Transaction} (h : tx ∈ opened) :
    (stagedRows opened).Perm (tx.rows ++ stagedRows (opened.erase tx)) :=
  (List.perm_cons_erase h).flatMap_right _

section effect

variable {worker : Option (Worker τ)} {opened : List Transaction} {store : Store}

/-- A call that leaves the store and the transactions alone. -/
theorem Moment.Effect.of_look {moment : Moment κ τ} (hstore : moment.after = moment.before)
    (hshown : ∀ row ∈ moment.shown, row ∈ moment.before.rows)
    (hleaves : moment.call.leaves opened moment.answer = opened) : moment.Effect opened := by
  refine .quiet hstore hshown ?_
  rw [hleaves]

theorem effect_begin {response : Except StoreError Transaction × Store}
    (h : response = (.ok Transaction.empty, store) ∨ ∃ error, response = (.error error, store)) :
    Moment.Effect (κ := κ) opened ⟨worker, .begin, response.1, store, response.2⟩ := by
  rcases h with rfl | ⟨error, rfl⟩
  · exact .quiet rfl (fun row hrow => nomatch hrow) (List.Subperm.refl _)
  · exact .of_look rfl (fun row hrow => nomatch hrow) rfl

theorem effect_get {id : RowId} {response : Except StoreError (Option Row) × Store}
    (h : response = (.ok (store.get? id), store) ∨ ∃ error, response = (.error error, store)) :
    Moment.Effect (κ := κ) opened ⟨worker, .get id, response.1, store, response.2⟩ := by
  rcases h with rfl | ⟨error, rfl⟩
  · refine .of_look rfl (fun row hrow => ?_) rfl
    cases hfound : store.get? id with
    | none => simp [Moment.shown, Call.shown, hfound] at hrow
    | some found =>
        simp only [Moment.shown, Call.shown, hfound, List.mem_singleton] at hrow
        subst hrow
        exact (Store.mem_of_get? hfound).1
  · exact .of_look rfl (fun row hrow => nomatch hrow) rfl

theorem effect_find {filter : RowFilter} {response : Except StoreError (List Row) × Store}
    (h : response = (.ok (store.find filter), store) ∨
      ∃ error, response = (.error error, store)) :
    Moment.Effect (κ := κ) opened ⟨worker, .find filter, response.1, store, response.2⟩ := by
  rcases h with rfl | ⟨error, rfl⟩
  · exact .of_look rfl (fun row hrow => (Store.mem_find hrow).1) rfl
  · exact .of_look rfl (fun row hrow => nomatch hrow) rfl

theorem effect_due {query : DueQuery} {response : Except StoreError (List Row) × Store}
    (h : response = (.ok (store.due query), store) ∨ ∃ error, response = (.error error, store)) :
    Moment.Effect (κ := κ) opened ⟨worker, .due query, response.1, store, response.2⟩ := by
  rcases h with rfl | ⟨error, rfl⟩
  · exact .of_look rfl (fun row hrow => (Store.mem_due hrow).1) rfl
  · exact .of_look rfl (fun row hrow => nomatch hrow) rfl

/-- A change is made in full, or nothing is changed and nothing shown. -/
theorem swap_response {change : Change} {response : Except StoreError (Option Row) × Store}
    (h : response = (store.swap change).swap ∨ ∃ error, response = (.error error, store) ∨
      response = (.error error, (store.swap change).1)) :
    response.2 = store ∧ Call.shown (.swap change : Call κ) response.1 = [] ∨
      ∃ row, store.get? change.id = some row ∧ change.fits row = true ∧
        response.2 = { store with rows := Store.changeRow store.rows (row.apply change) } ∧
        ∀ seen ∈ Call.shown (.swap change : Call κ) response.1, seen = row.apply change := by
  rcases store.swap_cases change with ⟨answer, hanswer, hswap⟩ | ⟨row, hrow, hfits⟩
  · rw [hswap] at h
    refine Or.inl ?_
    rcases h with rfl | ⟨error, rfl | rfl⟩
    · match answer with
      | .ok (some found) => exact absurd rfl (hanswer found)
      | .ok none => exact ⟨rfl, rfl⟩
      | .error error => exact ⟨rfl, rfl⟩
    · exact ⟨rfl, rfl⟩
    · exact ⟨rfl, rfl⟩
  · rw [Store.swap_of_fits hrow hfits] at h
    rcases h with rfl | ⟨error, rfl | rfl⟩
    · exact Or.inr ⟨row, hrow, hfits, rfl, fun seen hseen => List.mem_singleton.1 hseen⟩
    · exact Or.inl ⟨rfl, rfl⟩
    · exact Or.inr ⟨row, hrow, hfits, rfl, fun seen hseen => nomatch hseen⟩

theorem effect_swap {change : Change} {response : Except StoreError (Option Row) × Store}
    (h : response = (store.swap change).swap ∨ ∃ error, response = (.error error, store) ∨
      response = (.error error, (store.swap change).1)) :
    Moment.Effect (κ := κ) opened ⟨worker, .swap change, response.1, store, response.2⟩ := by
  rcases swap_response (κ := κ) h with ⟨hstore, hnone⟩ | ⟨row, hrow, hfits, hafter, hshown⟩
  · refine .of_look hstore (fun row hrow => ?_) rfl
    change row ∈ Call.shown (.swap change : Call κ) response.1 at hrow
    rw [hnone] at hrow
    cases hrow
  · exact .changed change row rfl hrow hfits hafter hshown rfl

theorem effect_stage {tx : Transaction} {draft : Draft} {now : Instant}
    {response : Except StoreError (Transaction × Row) × Store} (hopen : tx ∈ opened)
    (h : response = (store.stage tx draft now).swap ∨ ∃ error, response = (.error error, store) ∨
      response = (.error error, (store.stage tx draft now).1)) :
    Moment.Effect (κ := κ) opened ⟨worker, .stage tx draft, response.1, store, response.2⟩ := by
  rcases store.stage_cases tx draft now with ⟨error, hstage⟩ | hstage
  · rw [hstage] at h
    rcases h with rfl | ⟨error, rfl | rfl⟩
    · exact .of_look rfl (fun row hrow => nomatch hrow) rfl
    · exact .of_look rfl (fun row hrow => nomatch hrow) rfl
    · exact .of_look rfl (fun row hrow => nomatch hrow) rfl
  · rw [hstage] at h
    rcases h with rfl | ⟨error, rfl | rfl⟩
    · refine .staged draft now rfl (fun seen hseen => List.mem_singleton.1 hseen) ?_
      have hmoved : ((tx.rows ++ [Row.fresh ⟨store.issued + 1⟩ draft now]) ++
          stagedRows (opened.erase tx)).Perm
          (Row.fresh ⟨store.issued + 1⟩ draft now :: (tx.rows ++ stagedRows (opened.erase tx))) := by
        rw [List.append_assoc]
        exact List.perm_middle
      exact (hmoved.trans ((stagedRows_perm hopen).symm.cons _)).subperm
    · exact .of_look rfl (fun row hrow => nomatch hrow) rfl
    · exact .staged draft now rfl (fun seen hseen => nomatch hseen) (List.subperm_cons_self)

theorem effect_saveDocument {tx : Transaction} {collection key : String} {body : Json}
    {expected : Int} {now : Instant} {response : Except StoreError (Transaction × Document) × Store}
    (hopen : tx ∈ opened)
    (h : response = (store.saveDocument tx collection key body expected now, store) ∨
      ∃ error, response = (.error error, store)) :
    Moment.Effect (κ := κ) opened
      ⟨worker, .saveDocument tx collection key body expected, response.1, store, response.2⟩ := by
  rcases h with rfl | ⟨error, rfl⟩
  · cases hsave : store.saveDocument tx collection key body expected now with
    | error error => exact .of_look rfl (fun row hrow => nomatch hrow) rfl
    | ok saved =>
        refine .quiet rfl (fun row hrow => nomatch hrow) ?_
        have hrows : saved.1.rows = tx.rows := Store.saveDocument_rows hsave
        change (saved.1.rows ++ stagedRows (opened.erase tx)).Subperm _
        rw [hrows]
        exact (stagedRows_perm hopen).symm.subperm
  · exact .of_look rfl (fun row hrow => nomatch hrow) rfl

theorem effect_commit {tx : Transaction} {response : Except StoreError Unit × Store}
    (hopen : tx ∈ opened)
    (h : response = store.commitOrLeave tx ∨ ∃ error, response = (.error error, store) ∨
      response = (.error error, (store.commitOrLeave tx).2)) :
    Moment.Effect (κ := κ) opened ⟨worker, .commit tx, response.1, store, response.2⟩ := by
  have hfewer : (stagedRows (opened.erase tx)).Subperm (stagedRows opened) :=
    (List.sublist_append_right tx.rows _).subperm.trans (stagedRows_perm hopen).symm.subperm
  cases hcommit : store.commit tx with
  | error error =>
      simp only [Store.commitOrLeave, hcommit] at h
      rcases h with rfl | ⟨error, rfl | rfl⟩
      · exact .quiet rfl (fun row hrow => nomatch hrow) hfewer
      · exact .quiet rfl (fun row hrow => nomatch hrow) hfewer
      · exact .quiet rfl (fun row hrow => nomatch hrow) hfewer
  | ok committed =>
      simp only [Store.commitOrLeave, hcommit] at h
      rcases h with rfl | ⟨error, rfl | rfl⟩
      · exact .committed tx hopen hcommit rfl rfl rfl
      · exact .quiet rfl (fun row hrow => nomatch hrow) hfewer
      · exact .committed tx hopen hcommit rfl rfl rfl

end effect

theorem World.tx_mem_of_mayCall {world : World κ τ ρ} {call : Call κ} {tx : Transaction}
    (hmay : world.mayCall call = true) (htx : call.transaction? = some tx) :
    tx ∈ world.transactions := by
  simpa [mayCall, htx] using hmay

/-- Every call that may be made has one of the four effects. -/
theorem World.moment_effect (world : World κ τ ρ) (worker : Option (Worker τ)) (call : Call κ)
    (manner : Manner) (hmay : world.mayCall call = true) :
    (world.moment worker call manner).Effect world.transactions := by
  cases call with
  | begin => exact effect_begin (manner.onStore_look world.store _)
  | get id => exact effect_get (manner.onStore_look world.store _)
  | find filter => exact effect_find (manner.onStore_look world.store _)
  | due query => exact effect_due (manner.onStore_look world.store _)
  | swap change => exact effect_swap (manner.onStore_cases world.store _)
  | outgoing id =>
      rcases manner.onStore_look world.store (.ok (world.store.outgoingStatuses id)) with h | ⟨_, h⟩
      · exact .of_look (congrArg Prod.snd h) (fun row hrow => nomatch hrow) rfl
      · exact .of_look (congrArg Prod.snd h) (fun row hrow => nomatch hrow) rfl
  | document collection key =>
      rcases manner.onStore_look world.store (.ok (world.store.document? collection key))
        with h | ⟨_, h⟩
      · exact .of_look (congrArg Prod.snd h) (fun row hrow => nomatch hrow) rfl
      · exact .of_look (congrArg Prod.snd h) (fun row hrow => nomatch hrow) rfl
  | stage tx draft =>
      exact effect_stage (world.tx_mem_of_mayCall hmay rfl) (manner.onStore_cases world.store _)
  | documentIn tx collection key =>
      rcases manner.onStore_look world.store (.ok (world.store.documentIn? tx collection key))
        with h | ⟨_, h⟩
      · exact .of_look (congrArg Prod.snd h) (fun row hrow => nomatch hrow) rfl
      · exact .of_look (congrArg Prod.snd h) (fun row hrow => nomatch hrow) rfl
  | saveDocument tx collection key body expected =>
      exact effect_saveDocument (world.tx_mem_of_mayCall hmay rfl)
        (manner.onStore_look world.store _)
  | commit tx =>
      exact effect_commit (world.tx_mem_of_mayCall hmay rfl) (manner.onStore_cases world.store _)
  | publish routingKey envelope => exact .of_look rfl (fun row hrow => nomatch hrow) rfl
  | handle command => exact .of_look rfl (fun row hrow => nomatch hrow) rfl
  | now => exact .of_look rfl (fun row hrow => nomatch hrow) rfl
  | mint => exact .of_look rfl (fun row hrow => nomatch hrow) rfl
  | count sample => exact .of_look rfl (fun row hrow => nomatch hrow) rfl
  | samples => exact .of_look rfl (fun row hrow => nomatch hrow) rfl

namespace World

theorem answer_due (world : World κ τ ρ) (worker : Option (Worker τ)) (query : DueQuery)
    (manner : Manner) :
    (world.moment worker (.due query) manner).answer = .ok (world.store.due query) ∨
      ∃ error, (world.moment worker (.due query) manner).answer = .error error := by
  rcases manner.onStore_look world.store (.ok (world.store.due query)) with heq | ⟨error, heq⟩
  · exact Or.inl (congrArg Prod.fst heq)
  · exact Or.inr ⟨error, congrArg Prod.fst heq⟩

theorem answer_outgoing (world : World κ τ ρ) (worker : Option (Worker τ)) (id : MessageId)
    (manner : Manner) :
    (world.moment worker (.outgoing id) manner).answer = .ok (world.store.outgoingStatuses id) ∨
      ∃ error, (world.moment worker (.outgoing id) manner).answer = .error error := by
  rcases manner.onStore_look world.store (.ok (world.store.outgoingStatuses id)) with
    heq | ⟨error, heq⟩
  · exact Or.inl (congrArg Prod.fst heq)
  · exact Or.inr ⟨error, congrArg Prod.fst heq⟩

def rows (world : World κ τ ρ) : List Row :=
  world.store.rows ++ world.staged

/-- What ties the rows that were handed out to those there are.  A row's number is never given to
another row, and its version tells its contents. -/
structure Sound (world : World κ τ ρ) : Prop where
  distinct : DistinctNumbers world.rows
  issued : ∀ row ∈ world.rows, row.id.value ≤ world.store.issued
  seen_issued : ∀ seen ∈ world.handedOut, seen.id.value ≤ world.store.issued
  current : ∀ seen ∈ world.handedOut, ∀ row ∈ world.rows, row.id = seen.id →
    seen.version ≤ row.version ∧ (seen.version = row.version → seen = row)

theorem Sound.committed_distinct {world : World κ τ ρ} (h : world.Sound) :
    DistinctNumbers world.store.rows :=
  (List.pairwise_append.1 h.distinct).1

theorem mem_handedOut_record {world : World κ τ ρ} {moment : Moment κ τ} {row : Row} :
    row ∈ (world.record moment).handedOut ↔ row ∈ moment.shown ∨ row ∈ world.handedOut := by
  simp [handedOut, record]

/-- Fewer rows, or the same in another order, with nothing handed out but what was there. -/
theorem Sound.of_subperm {world next : World κ τ ρ} (h : world.Sound)
    (hrows : next.rows.Subperm world.rows) (hissued : next.store.issued = world.store.issued)
    (hseen : ∀ seen ∈ next.handedOut, seen ∈ world.rows ∨ seen ∈ world.handedOut) :
    next.Sound where
  distinct := h.distinct.of_subperm hrows
  issued row hrow := by
    rw [hissued]
    exact h.issued row (hrows.subset hrow)
  seen_issued seen hnew := by
    rw [hissued]
    rcases hseen seen hnew with hthere | hold
    · exact h.issued seen hthere
    · exact h.seen_issued seen hold
  current seen hnew row hrow hid := by
    rcases hseen seen hnew with hthere | hold
    · have heq : row = seen := h.distinct.eq_of_id_eq (hrows.subset hrow) hthere hid
      subst heq
      exact ⟨Int.le_refl _, fun _ => rfl⟩
    · exact h.current seen hold row (hrows.subset hrow) hid

/-- A committed row changed: its version has left all that were handed out behind. -/
theorem Sound.of_changed {world next : World κ τ ρ} (h : world.Sound) {row : Row} {change : Change}
    (hrow : row ∈ world.store.rows)
    (hrows : next.rows = Store.changeRow world.store.rows (row.apply change) ++ world.staged)
    (hissued : next.store.issued = world.store.issued)
    (hseen : ∀ seen ∈ next.handedOut, seen = row.apply change ∨ seen ∈ world.handedOut) :
    next.Sound := by
  have hthere : ∃ r ∈ world.store.rows, r.id = (row.apply change).id := ⟨row, hrow, rfl⟩
  have hin : row ∈ world.rows := List.mem_append_left _ hrow
  have hcases : ∀ r ∈ next.rows,
      r = row.apply change ∨ r ∈ world.rows ∧ r.id ≠ (row.apply change).id := by
    intro r hr
    rw [hrows] at hr
    rcases List.mem_append.1 hr with hcommitted | hstaged
    · rcases (Store.mem_changeRow hthere).1 hcommitted with rfl | ⟨hold, hne⟩
      · exact Or.inl rfl
      · exact Or.inr ⟨List.mem_append_left _ hold, hne⟩
    · refine Or.inr ⟨List.mem_append_right _ hstaged, fun heq => ?_⟩
      exact (List.pairwise_append.1 h.distinct).2.2 row hrow r hstaged heq.symm
  constructor
  · apply h.distinct.of_map_id_eq
    rw [hrows, rows, List.map_append, List.map_append, Store.map_id_changeRow]
  · intro r hr
    rw [hissued]
    rcases hcases r hr with rfl | ⟨hold, _⟩
    · exact h.issued row hin
    · exact h.issued r hold
  · intro seen hnew
    rw [hissued]
    rcases hseen seen hnew with rfl | hold
    · exact h.issued row hin
    · exact h.seen_issued seen hold
  · intro seen hnew r hr hid
    rcases hseen seen hnew with rfl | hold
    · rcases hcases r hr with rfl | ⟨_, hne⟩
      · exact ⟨Int.le_refl _, fun _ => rfl⟩
      · exact absurd hid hne
    · rcases hcases r hr with rfl | ⟨hin', _⟩
      · have hbehind := (h.current seen hold row hin hid).1
        have hversion : (row.apply change).version = row.version + 1 := rfl
        refine ⟨by omega, fun heq => ?_⟩
        omega
      · exact h.current seen hold r hin' hid

/-- A row staged under the next number. -/
theorem Sound.of_staged {world next : World κ τ ρ} (h : world.Sound) (row : Row)
    (hid : row.id = ⟨world.store.issued + 1⟩) (hrows : next.rows.Subperm (row :: world.rows))
    (hissued : next.store.issued = world.store.issued + 1)
    (hseen : ∀ seen ∈ next.handedOut, seen = row ∨ seen ∈ world.handedOut) : next.Sound := by
  have hvalue : row.id.value = world.store.issued + 1 := congrArg RowId.value hid
  have hnew : ∀ r ∈ world.rows, row.id ≠ r.id := by
    intro r hr heq
    have hle := h.issued r hr
    rw [← heq, hvalue] at hle
    omega
  constructor
  · exact DistinctNumbers.of_subperm (List.pairwise_cons.2 ⟨hnew, h.distinct⟩) hrows
  · intro r hr
    rw [hissued]
    rcases List.mem_cons.1 (hrows.subset hr) with rfl | hold
    · omega
    · have hle := h.issued r hold
      omega
  · intro seen hshown
    rw [hissued]
    rcases hseen seen hshown with rfl | hold
    · omega
    · have hle := h.seen_issued seen hold
      omega
  · intro seen hshown r hr hsame
    rcases List.mem_cons.1 (hrows.subset hr) with rfl | hold
    · rcases hseen seen hshown with rfl | hseen
      · exact ⟨Int.le_refl _, fun _ => rfl⟩
      · have hle := h.seen_issued seen hseen
        rw [← hsame, hvalue] at hle
        omega
    · rcases hseen seen hshown with rfl | hseen
      · exact absurd hsame.symm (hnew r hold)
      · exact h.current seen hseen r hold hsame

/-- A commit adds its rows to the committed ones. -/
theorem Sound.committed_perm {world : World κ τ ρ} (h : world.Sound) {tx : Transaction}
    {committed : Store} (hopen : tx ∈ world.transactions)
    (hcommit : world.store.commit tx = .ok committed) :
    committed.rows.Perm (world.store.rows ++ tx.rows) := by
  have hall : world.rows.Perm
      (world.store.rows ++ tx.rows ++ stagedRows (world.transactions.erase tx)) := by
    rw [List.append_assoc]
    exact (stagedRows_perm hopen).append_left _
  rw [(Store.commit_rows hcommit).1]
  exact Store.foldl_putRow_perm (List.pairwise_append.1 (h.distinct.of_perm hall)).1

theorem Sound.record {world : World κ τ ρ} (h : world.Sound) {moment : Moment κ τ}
    (hbefore : moment.before = world.store) (heffect : moment.Effect world.transactions) :
    (world.record moment).Sound := by
  have hsplit : ∀ {holds : Row → Prop}, (∀ seen ∈ moment.shown, holds seen) →
      ∀ seen ∈ (world.record moment).handedOut, holds seen ∨ seen ∈ world.handedOut := by
    intro holds hshown seen hseen
    exact (mem_handedOut_record.1 hseen).imp (hshown seen) id
  cases heffect with
  | quiet hstore hshown hstaged =>
      rw [hbefore] at hstore hshown
      refine h.of_subperm ?_ (congrArg Store.issued hstore)
        (hsplit fun seen hseen => List.mem_append_left _ (hshown seen hseen))
      change (moment.after.rows ++ stagedRows _).Subperm _
      rw [hstore]
      exact (List.Subperm.refl _).append hstaged
  | changed change row hcall hrow hfits hafter hshown hstaged =>
      rw [hbefore] at hrow hafter
      have hissued : moment.after.issued = world.store.issued := by rw [hafter]
      refine h.of_changed (Store.mem_of_get? hrow).1 ?_ hissued (hsplit hshown)
      change moment.after.rows ++ stagedRows (moment.call.leaves world.transactions _) = _
      rw [hafter, hstaged]
      rfl
  | staged draft now hafter hshown hstaged =>
      rw [hbefore] at hafter hshown hstaged
      have hissued : moment.after.issued = world.store.issued + 1 := by rw [hafter]
      refine h.of_staged (Row.fresh ⟨world.store.issued + 1⟩ draft now) rfl ?_ hissued
        (hsplit hshown)
      change (moment.after.rows ++ stagedRows _).Subperm _
      rw [hafter]
      exact ((List.Subperm.refl _).append hstaged).trans List.perm_middle.subperm
  | committed tx hopen hcommit hshown hleaves =>
      rw [hbefore] at hcommit
      refine h.of_subperm ?_ (Store.commit_rows hcommit).2 (hsplit fun seen hseen => ?_)
      · change (moment.after.rows ++ stagedRows (moment.call.leaves world.transactions _)).Subperm _
        rw [hleaves]
        refine ((h.committed_perm hopen hcommit).append_right _).subperm.trans ?_
        rw [List.append_assoc]
        exact ((stagedRows_perm hopen).symm.append_left _).subperm
      · rw [hshown] at hseen
        cases hseen

/-- A committed row stays, unless a change that fits it is made. -/
theorem Sound.row_after {world : World κ τ ρ} (h : world.Sound) {moment : Moment κ τ}
    (hbefore : moment.before = world.store) (heffect : moment.Effect world.transactions) {row : Row}
    (hrow : row ∈ world.store.rows) :
    ∃ after ∈ moment.after.rows, after.id = row.id ∧ (after = row ∨
      ∃ change, moment.call = .swap change ∧ change.fits row = true ∧ after = row.apply change) := by
  cases heffect with
  | quiet hstore hshown hstaged =>
      rw [hstore, hbefore]
      exact ⟨row, hrow, rfl, Or.inl rfl⟩
  | changed change old hcall hold hfits hafter hshown hstaged =>
      rw [hbefore] at hold hafter
      obtain ⟨hmem, hid⟩ := Store.mem_of_get? hold
      have hthere : ∃ r ∈ world.store.rows, r.id = (old.apply change).id := ⟨old, hmem, rfl⟩
      rw [hafter]
      by_cases hsame : row.id = old.id
      · have heq : row = old := h.committed_distinct.eq_of_id_eq hrow hmem hsame
        subst heq
        exact ⟨row.apply change, (Store.mem_changeRow hthere).2 (Or.inl rfl), rfl,
          Or.inr ⟨change, hcall, hfits, rfl⟩⟩
      · exact ⟨row, (Store.mem_changeRow hthere).2 (Or.inr ⟨hrow, hsame⟩), rfl, Or.inl rfl⟩
  | staged draft now hafter hshown hstaged =>
      rw [hafter, hbefore]
      exact ⟨row, hrow, rfl, Or.inl rfl⟩
  | committed tx hopen hcommit hshown hleaves =>
      rw [hbefore] at hcommit
      have hrows := (h.committed_perm hopen hcommit).mem_iff.2 (List.mem_append_left _ hrow)
      exact ⟨row, hrows, rfl, Or.inl rfl⟩

/-- Where a committed row comes from. -/
theorem Sound.row_before {world : World κ τ ρ} (h : world.Sound) {moment : Moment κ τ}
    (hbefore : moment.before = world.store) (heffect : moment.Effect world.transactions) {row : Row}
    (hrow : row ∈ moment.after.rows) :
    row ∈ world.store.rows ∨ row ∈ world.staged ∨
      ∃ change, ∃ old ∈ world.store.rows, moment.call = .swap change ∧ change.fits old = true ∧
        row = old.apply change := by
  cases heffect with
  | quiet hstore hshown hstaged =>
      rw [hstore, hbefore] at hrow
      exact Or.inl hrow
  | changed change old hcall hold hfits hafter hshown hstaged =>
      rw [hbefore] at hold hafter
      obtain ⟨hmem, hid⟩ := Store.mem_of_get? hold
      have hthere : ∃ r ∈ world.store.rows, r.id = (old.apply change).id := ⟨old, hmem, rfl⟩
      rw [hafter] at hrow
      rcases (Store.mem_changeRow hthere).1 hrow with rfl | ⟨hsame, _⟩
      · exact Or.inr (Or.inr ⟨change, old, hmem, hcall, hfits, rfl⟩)
      · exact Or.inl hsame
  | staged draft now hafter hshown hstaged =>
      rw [hafter, hbefore] at hrow
      exact Or.inl hrow
  | committed tx hopen hcommit hshown hleaves =>
      rw [hbefore] at hcommit
      rcases List.mem_append.1 ((h.committed_perm hopen hcommit).mem_iff.1 hrow) with hold | hnew
      · exact Or.inl hold
      · exact Or.inr (Or.inl (List.mem_flatMap.2 ⟨tx, hopen, hnew⟩))

/-- In every world, whatever the rules are, rows that were handed out tell the truth about their
version of the row. -/
theorem sound (rules : Rules κ τ ρ) (actions : List (Action κ τ)) : (rules.world actions).Sound := by
  refine Rules.world_induction World.Sound ?_ ?_ actions
  · constructor
    · exact List.Pairwise.nil
    · intro row hrow
      cases hrow
    · intro seen hseen
      cases hseen
    · intro seen hseen
      cases hseen
  · intro earlier next h hnext
    generalize rules.world earlier = world at h hnext
    cases hnext with
    | idle => exact h
    | started task hadmits => exact ⟨h.distinct, h.issued, h.seen_issued, h.current⟩
    | worked worker call next manner hjob hallows =>
        have hmay := (Bool.and_eq_true_iff.1 hallows).1
        have hrecord : (world.record (world.moment (some worker) call manner)).Sound :=
          h.record rfl (world.moment_effect _ call manner hmay)
        exact ⟨hrecord.distinct, hrecord.issued, hrecord.seen_issued, hrecord.current⟩
    | called call manner hbystander hallows =>
        exact h.record rfl (world.moment_effect _ call manner (Bool.and_eq_true_iff.1 hallows).1)
    | cleared hclears =>
        refine h.of_subperm ?_ rfl fun seen hseen => Or.inr hseen
        exact (List.sublist_append_right world.store.rows _).subperm

end World

end Courier
