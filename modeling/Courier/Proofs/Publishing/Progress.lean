import Courier.Proofs.Interleaving.Commits
import Courier.Proofs.Publishing.Accounts
import Courier.Proofs.Publishing.Alone
import Courier.Proofs.Publishing.Reports
import Mathlib.Algebra.Order.BigOperators.Group.List
import Mathlib.Algebra.Order.Group.Nat
/-
Work that runs out.  A publisher that nobody disturbs sets every row that it fetches back once more,
or is done with it.  The ceiling leaves a row only so many of either, and so each row is fetched only
so often, and ticks that find something to do come to an end.
-/
namespace Courier

variable {κ : Type} {M : Count}

/-- How often a row was set back: by failures, and by causes that were still on their way. -/
def Row.setbacks (row : Row) : Nat :=
  row.retries.toNat + row.deferrals.toNat

/-- What has become of a row: it is done with, or it was set back once more. -/
def Row.GoesOn (row left : Row) : Prop :=
  left.isTerminal = true ∨ row.setbacks < left.setbacks

/-- How often a row may still be fetched under a ceiling. -/
def Row.allowance (M : Count) (row : Row) : Nat :=
  if row.isTerminal then 0 else 2 * M.toNat - 1 - row.setbacks

/-- How often the row with a number may still be fetched.  If there is none yet, it has all before
it. -/
def Store.allowance (M : Count) (store : Store) (id : RowId) : Nat :=
  (store.get? id).elim (2 * M.toNat - 1) (Row.allowance M)

theorem Row.allowance_le (row : Row) : row.allowance M ≤ 2 * M.toNat - 1 := by
  unfold allowance
  split <;> omega

theorem Store.allowance_of_get? {store : Store} {id : RowId} {row : Row}
    (h : store.get? id = some row) : store.allowance M id = row.allowance M := by
  rw [allowance, h]
  rfl

theorem Store.allowance_le (store : Store) (id : RowId) :
    store.allowance M id ≤ 2 * M.toNat - 1 := by
  cases hrow : store.get? id with
  | none => rw [allowance, hrow]; exact Nat.le_refl _
  | some row => rw [allowance_of_get? hrow]; exact row.allowance_le

/-- Both counters of an open row are below the ceiling, so that it may be fetched once more; and
whatever becomes of it, it may be fetched less often afterwards. -/
theorem Row.Bounded.spends {row left : Row} (h : row.Bounded M) (hopen : row.isTerminal = false)
    (hgoes : row.GoesOn left) : left.allowance M < row.allowance M := by
  obtain ⟨hretries, hdeferrals⟩ := h.live (isTerminal_eq_false_iff.1 hopen).2
  rw [UInt32.lt_iff_toNat_lt] at hretries hdeferrals
  have hroom : row.setbacks < 2 * M.toNat - 1 := by
    unfold setbacks
    omega
  have hrow : row.allowance M = 2 * M.toNat - 1 - row.setbacks := by simp [allowance, hopen]
  rw [hrow]
  cases hleft : left.isTerminal with
  | true =>
      have hnone : left.allowance M = 0 := by simp [allowance, hleft]
      omega
  | false =>
      have hmore : row.setbacks < left.setbacks := hgoes.resolve_left (by simp [hleft])
      have hrest : left.allowance M = 2 * M.toNat - 1 - left.setbacks := by simp [allowance, hleft]
      omega

/-- One more than a count below the ceiling is no more than the ceiling. -/
theorem Count.le_of_succ {n more : Count} (hcount : more.toNat = n.toNat + 1) (h : n < M) :
    more ≤ M := by
  rw [UInt32.lt_iff_toNat_lt] at h
  rw [UInt32.le_iff_toNat_le]
  omega

/-- The rows of a store have numbers of their own and the form that a ceiling gives to them. -/
structure Store.Bounded (M : Count) (store : Store) : Prop where
  distinct : DistinctNumbers store.rows
  rows : ∀ row ∈ store.rows, row.Bounded M

namespace Publisher

variable {publisher : Publisher κ} {now : Instant} {before between after : Store}
  {row claimed changed : Row} {ending : Ending} {handed : List (HandOver κ)} {batch : List Row}

theorem Claims.bounded (h : publisher.Claims now before row claimed) (hdue : publisher.Due now row) :
    claimed.Bounded publisher.settings.maxRetries := by
  obtain ⟨hretries, hdeferrals⟩ := hdue.bounded.live hdue.live
  cases h with
  | takenUp hfree hcause => exact .of_live hdue.live hretries hdeferrals nofun nofun
  | takenOver hheld hexpired hcount hroom =>
      exact .of_live hdue.live hroom hdeferrals (by simp [hheld]) (by simp [hheld])

theorem Claims.live (h : publisher.Claims now before row claimed) (hdue : publisher.Due now row) :
    claimed.deadLettered = false := by
  cases h <;> exact hdue.live

/-- A claim forgets no setback. -/
theorem Claims.setbacks_le (h : publisher.Claims now before row claimed) :
    row.setbacks ≤ claimed.setbacks := by
  unfold Row.setbacks
  cases h with
  | takenUp => exact Nat.le_refl _
  | takenOver _ _ hcount => simp only [hcount]; omega

theorem Settles.bounded (h : publisher.Settles now claimed ending handed changed)
    (hbounded : claimed.Bounded publisher.settings.maxRetries)
    (hlive : claimed.deadLettered = false) : changed.Bounded publisher.settings.maxRetries := by
  obtain ⟨hretries, hdeferrals⟩ := hbounded.live hlive
  cases h with
  | delivered => exact .of_live hlive hretries hdeferrals nofun fun _ => rfl
  | unreadable => exact .of_failed rfl hbounded.retries_le hdeferrals rfl nofun
  | rejected => exact .of_failed rfl hbounded.retries_le hdeferrals rfl nofun
  | failed _ _ _ hcount =>
      exact .of_failed rfl (Count.le_of_succ hcount hretries) hdeferrals rfl
        fun hopen => UInt32.not_le.1 (of_decide_eq_false hopen)

/-- Whoever holds a claim is done with the row, or sets it back. -/
theorem Settles.goesOn (h : publisher.Settles now claimed ending handed changed) :
    claimed.GoesOn changed := by
  cases h with
  | delivered => exact Or.inl rfl
  | unreadable => exact Or.inl (Bool.or_true _)
  | rejected => exact Or.inl (Bool.or_true _)
  | failed _ _ _ hcount => exact Or.inr (by simp only [Row.setbacks, hcount]; omega)

theorem Handles.bounded (h : publisher.Handles now before row ending handed changed)
    (hdue : publisher.Due now row) : changed.Bounded publisher.settings.maxRetries := by
  obtain ⟨hretries, hdeferrals⟩ := hdue.bounded.live hdue.live
  cases h with
  | exhausted hheld hexpired hcount hceiling =>
      exact .of_failed rfl (Count.le_of_succ hcount hretries) hdeferrals rfl nofun
  | @postponed deferrals hfree hcause hcount =>
      have hnext : Count.next row.deferrals = deferrals :=
        UInt32.toNat_inj.1 (hdue.deferrals.trans hcount.symm)
      have hrow := publisher.custodian.apply_deferChange hdue.live
        (now.after (publisher.settings.backoff.delay deferrals))
      rw [hnext] at hrow
      exact hrow ▸ hdue.bounded.postpone hdue.live rfl (Custodian.mayDefer_iff.2 ⟨hdue.live, hfree⟩)
  | claimed hclaims hsettles => exact hsettles.bounded (hclaims.bounded hdue) (hclaims.live hdue)

/-- Whoever has a turn is done with afterwards, or was set back. -/
theorem Handles.goesOn (h : publisher.Handles now before row ending handed changed) :
    row.GoesOn changed := by
  cases h with
  | exhausted => exact Or.inl (Bool.or_true _)
  | postponed _ _ hcount => exact Or.inr (by simp only [Row.setbacks, hcount]; omega)
  | claimed hclaims hsettles => exact hsettles.goesOn.imp_right (Nat.lt_of_le_of_lt hclaims.setbacks_le)

structure Advances (publisher : Publisher κ) (batch : List Row) (before after : Store) : Prop where
  bounded : after.Bounded publisher.settings.maxRetries
  handled : ∀ row ∈ batch, ∃ left, after.get? row.id = some left ∧ row.GoesOn left
  others : ∀ id, (∀ row ∈ batch, row.id ≠ id) → after.get? id = before.get? id

theorem Turn.bounded (h : publisher.Turn now before row handed between) (hdue : publisher.Due now row)
    (hbefore : before.Bounded publisher.settings.maxRetries) :
    between.Bounded publisher.settings.maxRetries := by
  obtain ⟨ending, ⟨changed, hhandles, rfl⟩, _⟩ := h.ended
  have hthere : ∃ other ∈ before.rows, other.id = changed.id :=
    ⟨row, (Store.mem_of_get? h.unchanged).1, hhandles.id_eq.symm⟩
  refine ⟨Store.withRow_distinct hbefore.distinct, fun other hother => ?_⟩
  rcases (Store.mem_changeRow hthere).1 hother with rfl | ⟨hold, _⟩
  · exact hhandles.bounded hdue
  · exact hbefore.rows other hold

theorem Turn.goesOn (h : publisher.Turn now before row handed between)
    (hbefore : before.Bounded publisher.settings.maxRetries) :
    ∃ left, between.get? row.id = some left ∧ row.GoesOn left := by
  obtain ⟨ending, ⟨changed, hhandles, rfl⟩, _⟩ := h.ended
  have hthere : ∃ other ∈ before.rows, other.id = changed.id :=
    ⟨row, (Store.mem_of_get? h.unchanged).1, hhandles.id_eq.symm⟩
  refine ⟨changed, ?_, hhandles.goesOn⟩
  rw [← hhandles.id_eq]
  exact Store.get?_withRow hthere hbefore.distinct

/-- No row has a second turn, so that what its turn has made of it is still there at the end. -/
theorem InTurn.advances (h : publisher.InTurn now batch before handed after)
    (hdue : ∀ row ∈ batch, publisher.Due now row) (hapart : DistinctNumbers batch)
    (hbefore : before.Bounded publisher.settings.maxRetries) :
    publisher.Advances batch before after := by
  refine ⟨?_, ?_, fun id => h.spares.2.2.2 id⟩
  · induction h with
    | none store => exact hbefore
    | next hturn hrest ih =>
        obtain ⟨hfirst, hothers⟩ := List.forall_mem_cons.1 hdue
        exact ih hothers (List.pairwise_cons.1 hapart).2 (hturn.bounded hfirst hbefore)
  · induction h with
    | none store => exact fun row hrow => absurd hrow List.not_mem_nil
    | next hturn hrest ih =>
        obtain ⟨hfirst, hothers⟩ := List.forall_mem_cons.1 hdue
        obtain ⟨hnew, hapart⟩ := List.pairwise_cons.1 hapart
        refine List.forall_mem_cons.2 ⟨?_, ih hothers hapart (hturn.bounded hfirst hbefore)⟩
        rw [hrest.spares.2.2.2 _ fun other hother => (hnew other hother).symm]
        exact hturn.goesOn hbefore

/-- A tick uses up some of what is left to the rows of its batch. -/
theorem Advances.allowance_le
    (h : publisher.Advances (before.due (publisher.batchQuery now)) before after)
    (hbefore : before.Bounded publisher.settings.maxRetries) (id : RowId) :
    ((before.due (publisher.batchQuery now)).map (·.id)).count id +
        after.allowance publisher.settings.maxRetries id ≤
      before.allowance publisher.settings.maxRetries id := by
  by_cases hfetched : ∃ row ∈ before.due (publisher.batchQuery now), row.id = id
  · obtain ⟨row, hrow, rfl⟩ := hfetched
    obtain ⟨left, hleft, hgoes⟩ := h.handled row hrow
    obtain ⟨hthere, hselected⟩ := Store.mem_due hrow
    have hspends := (hbefore.rows row hthere).spends (DueQuery.open_of_selects hselected) hgoes
    have honce : ((before.due (publisher.batchQuery now)).map (·.id)).count row.id ≤ 1 :=
      List.nodup_iff_count_le_one.1 (List.pairwise_map.2
        ((Store.due_sorted hbefore.distinct).imp fun hprecedes => hprecedes.2)) _
    rw [Store.allowance_of_get? hleft,
      Store.allowance_of_get? ((Store.get?_eq_some_iff hbefore.distinct).2 ⟨hthere, rfl⟩)]
    omega
  · have hothers : ∀ row ∈ before.due (publisher.batchQuery now), row.id ≠ id :=
      fun row hrow hid => hfetched ⟨row, hrow, hid⟩
    have hnone : ((before.due (publisher.batchQuery now)).map (·.id)).count id = 0 := by
      refine List.count_eq_zero.2 fun hmem => ?_
      obtain ⟨row, hrow, hid⟩ := List.mem_map.1 hmem
      exact hothers row hrow hid
    rw [hnone, Nat.zero_add, Store.allowance, Store.allowance, h.others id hothers]

/-- A tick that nobody disturbs ends well, and reports how many rows it has fetched. -/
theorem ends_tickAt (outside : Nat → Manner) (now : Instant) {scene : Scene κ}
    (hbounded : scene.store.Bounded publisher.settings.maxRetries) :
    Program.Ends (Scene.answer outside) (publisher.tickAt now) scene fun outcome after =>
      ∃ report, outcome = .ok report ∧
        report.fetched = (scene.store.due (publisher.batchQuery now)).length ∧
        publisher.Advances (scene.store.due (publisher.batchQuery now)) scene.store after.store := by
  have hfetch : (Scene.answer outside (.due (publisher.batchQuery now) : Call κ) scene).1 =
      .ok (scene.store.due (publisher.batchQuery now)) := rfl
  have hdue : ∀ row ∈ scene.store.due (publisher.batchQuery now), publisher.Due now row :=
    fun row hrow => ⟨(Store.mem_due hrow).2, hbounded.rows row (Store.mem_due hrow).1⟩
  have hapart : DistinctNumbers (scene.store.due (publisher.batchQuery now)) :=
    (Store.due_sorted hbounded.distinct).imp fun hprecedes => hprecedes.2
  have hshows : (Scene.answer outside (.due (publisher.batchQuery now) : Call κ) scene).2.Shows
      scene.store scene.handed := ⟨rfl, List.append_nil _⟩
  have hprocessed : (publisher.processAll now (scene.store.due (publisher.batchQuery now))
      { fetched := (scene.store.due (publisher.batchQuery now)).length }).Ends (Scene.answer outside)
      (Scene.answer outside (.due (publisher.batchQuery now) : Call κ) scene).2
      fun report after => report.fetched = (scene.store.due (publisher.batchQuery now)).length ∧
        ∃ more last, publisher.InTurn now (scene.store.due (publisher.batchQuery now)) scene.store
          more last ∧ after.Shows last (scene.handed ++ more) := by
    obtain ⟨outcomes, hturns⟩ := processAll_turns (Scene.answer outside) publisher now _ _ _
    exact ⟨hturns.added.fetched, ends_processAll hdue (fun row hrow => (Store.mem_due hrow).1) hapart
      hbounded.distinct hshows _⟩
  refine ends_tick hfetch (Program.Ends.mono hprocessed ?_)
  rintro report after ⟨hfetched, more, last, hturns, hstore, _⟩
  refine ⟨report, rfl, hfetched, ?_⟩
  change publisher.Advances _ scene.store after.store
  rw [hstore]
  exact hturns.advances hdue hapart hbounded

end Publisher

structure Store.Takes (store : Store) (tx : Transaction) (committed : Store) : Prop where
  fresh : ∀ row ∈ tx.rows, ∃ id draft now, row = Row.fresh id draft now
  apart : DistinctNumbers (store.rows ++ tx.rows)
  done : store.commit tx = .ok committed

namespace Store.Takes

variable {store committed : Store} {tx : Transaction} (h : store.Takes tx committed)

include h

theorem perm : committed.rows.Perm (store.rows ++ tx.rows) := by
  rw [(commit_rows h.done).1]
  exact foldl_putRow_perm h.apart

theorem distinct : DistinctNumbers committed.rows :=
  h.apart.of_perm h.perm.symm

theorem bounded (hM : 0 < M) (hstore : store.Bounded M) : committed.Bounded M := by
  refine ⟨h.distinct, fun row hrow => ?_⟩
  rcases List.mem_append.1 (h.perm.mem_iff.1 hrow) with hold | hnew
  · exact hstore.rows row hold
  · obtain ⟨id, draft, now, rfl⟩ := h.fresh row hnew
    exact .fresh hM id draft now

/-- Whatever is found afterwards was there before, or it is fresh. -/
theorem get?_cases (id : RowId) :
    committed.get? id = store.get? id ∨ store.get? id = none ∧ ∃ row ∈ tx.rows, row.id = id := by
  by_cases hjoined : ∃ row ∈ tx.rows, row.id = id
  · refine Or.inr ⟨get?_eq_none_iff.2 fun row hrow => ?_, hjoined⟩
    obtain ⟨other, hother, rfl⟩ := hjoined
    exact (List.pairwise_append.1 h.apart).2.2 row hrow other hother
  · exact Or.inl (get?_commit h.perm h.distinct fun row hrow hid => hjoined ⟨row, hrow, hid⟩)

/-- Nobody is allowed less by a commit, and nobody more. -/
theorem allowance_le (M : Count) (id : RowId) : committed.allowance M id ≤ store.allowance M id := by
  rcases h.get?_cases id with hsame | ⟨hnone, _⟩
  · rw [allowance, allowance, hsame]
  · have hall : store.allowance M id = 2 * M.toNat - 1 := by rw [allowance, hnone]; rfl
    rw [hall]
    exact committed.allowance_le id

end Store.Takes

namespace Publisher

/-- A publisher ticks as of any instants, whatever is answered from outside, and nobody else writes to
the store, except that fresh rows are committed between two ticks.  The course has the batches that
are fetched, and the rows that join. -/
inductive Course (publisher : Publisher κ) : Store → List (List Row) → List Row → Store → Prop where
  | none (store : Store) : Course publisher store [] [] store
  | tick {batches : List (List Row)} {joined : List Row} {last : Store} (scene : Scene κ)
      (outside : Nat → Manner) (now : Instant)
      (hrest : Course publisher
        (Program.run (Scene.answer outside) (publisher.tickAt now).run scene).2.store batches joined
        last) :
      Course publisher scene.store (scene.store.due (publisher.batchQuery now) :: batches) joined last
  | commit {store committed last : Store} {tx : Transaction} {batches : List (List Row)}
      {joined : List Row} (htakes : store.Takes tx committed)
      (hrest : Course publisher committed batches joined last) :
      Course publisher store batches (tx.rows ++ joined) last

/-- Every batch that is not empty takes a row. -/
theorem length_filter_le_flatten (batches : List (List Row)) :
    (batches.filter fun batch => !batch.isEmpty).length ≤ batches.flatten.length := by
  induction batches with
  | nil => exact Nat.le_refl _
  | cons batch rest ih =>
      cases batch with
      | nil => simpa using ih
      | cons row others =>
          simp only [List.filter_cons, List.isEmpty_cons, Bool.not_false, ↓reduceIte,
            List.flatten_cons, List.length_cons, List.length_append]
          omega

section course

variable {publisher : Publisher κ} {store last : Store} {batches : List (List Row)} {joined : List Row}
  (h : publisher.Course store batches joined last) (hM : 0 < publisher.settings.maxRetries)
  (hstore : store.Bounded publisher.settings.maxRetries)

include h hM hstore

theorem Course.bounded : last.Bounded publisher.settings.maxRetries := by
  induction h with
  | none store => exact hstore
  | tick scene outside now hrest ih =>
      obtain ⟨report, _, _, hadvances⟩ := ends_tickAt outside now hstore
      exact ih hadvances.bounded
  | commit htakes hrest ih => exact ih (htakes.bounded hM hstore)

/-- Whenever a row is fetched, some of what was left to it is used up. -/
theorem Course.count_le (id : RowId) :
    (batches.flatten.map (·.id)).count id + last.allowance publisher.settings.maxRetries id ≤
      store.allowance publisher.settings.maxRetries id := by
  induction h with
  | none store => simp
  | tick scene outside now hrest ih =>
      obtain ⟨report, _, _, hadvances⟩ := ends_tickAt outside now hstore
      have hlater := ih hadvances.bounded
      have hnow := hadvances.allowance_le hstore id
      rw [List.flatten_cons, List.map_append, List.count_append, Nat.add_assoc]
      exact Nat.le_trans (Nat.add_le_add_left hlater _) hnow
  | commit htakes hrest ih =>
      exact Nat.le_trans (ih (htakes.bounded hM hstore)) (htakes.allowance_le _ id)

/-- Whatever is fetched was open at the beginning, or it has joined. -/
theorem Course.fetched {row : Row} (hrow : row ∈ batches.flatten) :
    (∃ first ∈ store.rows, first.id = row.id ∧ first.isTerminal = false) ∨
      ∃ other ∈ joined, other.id = row.id := by
  induction h with
  | none store => exact absurd hrow List.not_mem_nil
  | tick scene outside now hrest ih =>
      obtain ⟨report, _, _, hadvances⟩ := ends_tickAt outside now hstore
      have hopen : ∀ due ∈ scene.store.due (publisher.batchQuery now),
          due ∈ scene.store.rows ∧ due.isTerminal = false := fun due hdue =>
        ⟨(Store.mem_due hdue).1, DueQuery.open_of_selects (Store.mem_due hdue).2⟩
      rcases List.mem_append.1 hrow with hdue | hlater
      · exact Or.inl ⟨row, (hopen row hdue).1, rfl, (hopen row hdue).2⟩
      · refine (ih hadvances.bounded hlater).imp_left ?_
        rintro ⟨first, hfirst, hid, hstill⟩
        by_cases hdue : ∃ due ∈ scene.store.due (publisher.batchQuery now), due.id = row.id
        · obtain ⟨due, hmem, hsame⟩ := hdue
          exact ⟨due, (hopen due hmem).1, hsame, (hopen due hmem).2⟩
        · have hkept := hadvances.others row.id fun due hmem hsame => hdue ⟨due, hmem, hsame⟩
          have hfound := (Store.get?_eq_some_iff hadvances.bounded.distinct).2 ⟨hfirst, hid⟩
          exact ⟨first, (Store.mem_of_get? (hkept.symm.trans hfound)).1, hid, hstill⟩
  | commit htakes hrest ih =>
      rcases ih (htakes.bounded hM hstore) hrow with ⟨first, hfirst, hid, hopen⟩ | ⟨other, hother, hid⟩
      · rcases List.mem_append.1 (htakes.perm.mem_iff.1 hfirst) with hold | hnew
        · exact Or.inl ⟨first, hold, hid, hopen⟩
        · exact Or.inr ⟨first, List.mem_append_left _ hnew, hid⟩
      · exact Or.inr ⟨other, List.mem_append_right _ hother, hid⟩

/-- No row is fetched more often than the ceiling allows, so that many batches take many rows. -/
theorem Course.length_le :
    (batches.filter fun batch => !batch.isEmpty).length ≤
      (store.rows.countP (fun row => !row.isTerminal) + joined.length) *
        (2 * publisher.settings.maxRetries.toNat - 1) := by
  let fetched := batches.flatten.map (·.id)
  let allowed := (store.rows.filter fun row => !row.isTerminal).map (·.id) ++ joined.map (·.id)
  have hallowed : fetched.dedup.length ≤ allowed.length := by
    refine List.Nodup.length_le_of_subset fetched.nodup_dedup fun id hid => ?_
    obtain ⟨row, hrow, rfl⟩ := List.mem_map.1 (List.mem_dedup.1 hid)
    rcases h.fetched hM hstore hrow with ⟨first, hfirst, hsame, hopen⟩ | ⟨other, hother, hsame⟩
    · refine List.mem_append_left _ (List.mem_map.2 ⟨first, List.mem_filter.2 ⟨hfirst, ?_⟩, hsame⟩)
      rw [hopen]
      rfl
    · exact List.mem_append_right _ (List.mem_map.2 ⟨other, hother, hsame⟩)
  have heach : ∀ id ∈ fetched.dedup, fetched.count id ≤ 2 * publisher.settings.maxRetries.toNat - 1 :=
    fun id _ => Nat.le_trans (Nat.le_trans (Nat.le_add_right _ _) (h.count_le hM hstore id))
      (store.allowance_le id)
  calc
    (batches.filter fun batch => !batch.isEmpty).length ≤ batches.flatten.length :=
      length_filter_le_flatten batches
    _ = fetched.length := (List.length_map _).symm
    _ = (fetched.dedup.map fetched.count).sum := (List.sum_map_count_dedup_eq_length fetched).symm
    _ ≤ fetched.dedup.length * (2 * publisher.settings.maxRetries.toNat - 1) := by
      have hsum := List.sum_le_card_nsmul (fetched.dedup.map fetched.count) _ (List.forall_mem_map.2 heach)
      simpa using hsum
    _ ≤ allowed.length * (2 * publisher.settings.maxRetries.toNat - 1) := Nat.mul_le_mul_right _ hallowed
    _ = _ := by simp [allowed, List.countP_eq_length_filter]

end course

section drain

variable {publisher : Publisher κ} {outside : Nat → Manner} {scene : Scene κ}

/-- Ticks that follow each other at once come to an end of their own, or each has found a row. -/
theorem drain_cases (hbatch : 0 < publisher.settings.batchSize)
    (hstore : scene.store.Bounded publisher.settings.maxRetries) (fuel : Nat) :
    (∀ more, Program.run (Scene.answer outside) (publisher.drain (fuel + more)) scene =
        Program.run (Scene.answer outside) (publisher.drain fuel) scene) ∨
      ∃ batches last, publisher.Course scene.store batches [] last ∧ batches.length = fuel ∧
        ∀ batch ∈ batches, batch ≠ [] := by
  induction fuel generalizing scene with
  | zero => exact Or.inr ⟨[], scene.store, .none _, rfl, fun _ h => absurd h List.not_mem_nil⟩
  | succ fuel ih =>
      let now : Instant := (Scene.answer outside (.now : Call κ) scene).1
      let between : Scene κ := (Scene.answer outside (.now : Call κ) scene).2
      let after : Scene κ := (Program.run (Scene.answer outside) (publisher.tickAt now).run between).2
      have hbetween : between.store.Bounded publisher.settings.maxRetries := hstore
      obtain ⟨report, hreport, hfetched, hadvances⟩ := ends_tickAt outside now hbetween
      have htick : Program.run (Scene.answer outside) publisher.tick.run scene = (.ok report, after) :=
        Prod.ext hreport rfl
      have hdrain : ∀ rest, Program.run (Scene.answer outside) (publisher.drain (rest + 1)) scene =
          if publisher.settings.batchSize ≤ report.fetched then
            Program.run (Scene.answer outside) (publisher.drain rest) after
          else ((), after) := by
        intro rest
        refine (Program.run_bind ..).trans ?_
        rw [htick]
        dsimp only
        split
        · rfl
        · rfl
      by_cases hfull : publisher.settings.batchSize ≤ report.fetched
      · rcases ih hadvances.bounded with hends | ⟨batches, last, hcourse, hlength, hfound⟩
        · refine Or.inl fun more => ?_
          rw [Nat.add_right_comm, hdrain, hdrain, if_pos hfull, if_pos hfull]
          exact hends more
        · refine Or.inr ⟨_, last, .tick between outside now hcourse, ?_, ?_⟩
          · rw [List.length_cons, hlength]
          · refine List.forall_mem_cons.2 ⟨fun hnone => ?_, hfound⟩
            rw [hnone, List.length_nil] at hfetched
            omega
      · refine Or.inl fun more => ?_
        rw [Nat.add_right_comm, hdrain, hdrain, if_neg hfull, if_neg hfull]

end drain

/-- The work that a publisher finds in a store runs out, whatever is answered from outside. -/
structure RunsOut (publisher : Publisher κ) (store : Store) : Prop where
  /-- A tick ends well at any point of a course, and each row that it has fetched is done with, or it
  was set back. -/
  progress : ∀ {batches joined between}, publisher.Course store batches joined between →
    ∀ (scene : Scene κ), scene.store = between → ∀ outside now, ∃ report last,
      Program.run (Scene.answer outside) (publisher.tickAt now).run scene = (.ok report, last) ∧
      report.fetched = (between.due (publisher.batchQuery now)).length ∧
      ∀ row ∈ between.due (publisher.batchQuery now), ∃ left, last.store.get? row.id = some left ∧
        (left.isTerminal = true ∨
          row.retries.toNat + row.deferrals.toNat < left.retries.toNat + left.deferrals.toNat)
  /-- No row is fetched more often than the ceiling allows. -/
  fetches : ∀ {batches joined last}, publisher.Course store batches joined last → ∀ id,
    (batches.flatten.map (·.id)).count id ≤ 2 * publisher.settings.maxRetries.toNat - 1
  /-- No more ticks find something to do than the open rows, and those that join, allow. -/
  ticks : ∀ {batches joined last}, publisher.Course store batches joined last →
    (batches.filter fun batch => !batch.isEmpty).length ≤
      (store.rows.countP (fun row => !row.isTerminal) + joined.length) *
        (2 * publisher.settings.maxRetries.toNat - 1)
  /-- Ticks that follow each other at once need no more turns than that. -/
  drained : 0 < publisher.settings.batchSize → ∀ (scene : Scene κ), scene.store = store →
    ∀ outside fuel, store.rows.countP (fun row => !row.isTerminal) *
        (2 * publisher.settings.maxRetries.toNat - 1) < fuel →
      ∀ more, Program.run (Scene.answer outside) (publisher.drain (fuel + more)) scene =
        Program.run (Scene.answer outside) (publisher.drain fuel) scene

theorem runsOut {publisher : Publisher κ} (hM : 0 < publisher.settings.maxRetries) {store : Store}
    (hstore : store.Bounded publisher.settings.maxRetries) : publisher.RunsOut store where
  progress := by
    rintro batches joined _ hcourse scene rfl outside now
    obtain ⟨report, hreport, hfetched, hadvances⟩ :=
      ends_tickAt outside now (hcourse.bounded hM hstore)
    exact ⟨report, _, Prod.ext hreport rfl, hfetched, hadvances.handled⟩
  fetches hcourse id :=
    Nat.le_trans (Nat.le_trans (Nat.le_add_right _ _) (hcourse.count_le hM hstore id))
      (store.allowance_le id)
  ticks hcourse := hcourse.length_le hM hstore
  drained := by
    rintro hbatch scene rfl outside fuel hfuel
    refine (drain_cases hbatch hstore fuel).resolve_right ?_
    rintro ⟨batches, last, hcourse, rfl, hfound⟩
    have hall : batches.filter (fun batch => !batch.isEmpty) = batches :=
      List.filter_eq_self.2 fun batch hmem => by simp [hfound batch hmem]
    have hfew := hcourse.length_le hM hstore
    rw [hall, List.length_nil, Nat.add_zero] at hfew
    exact absurd hfuel (Nat.not_lt.2 hfew)

end Publisher

/-- In every store that publishers with one ceiling can bring about, whatever has failed and whoever
has stopped: what one of them finds there runs out when it goes on alone. -/
theorem work_runs_out {publisher : Publisher κ} (hM : 0 < publisher.settings.maxRetries)
    (actions : List (Action κ (Shift κ))) :
    publisher.RunsOut ((sharing κ publisher.settings.maxRetries).world actions).store :=
  Publisher.runsOut hM ⟨(World.sound (sharing κ publisher.settings.maxRetries) actions).committed_distinct,
    fun row hrow => (sharing_bounded actions row hrow).1 hM⟩

/-- A publisher that waits for nothing, and takes one row at a time. -/
def eager : Publisher Unit :=
  ⟨⟨Registry.empty, Table.empty⟩,
    { maxRetries := 2, batchSize := 1, backoffBase := Span.ofMillis 0, backoffCap := Span.ofMillis 0 }⟩

/-- A publisher has claimed a parcel and stopped, and another parcel waits for itself. -/
def parcelsAbandoned : List (Action Unit (Shift Unit)) :=
  posted 2 (parcel 2 (some (parcel 2 none).messageId)) ++ ticking epoch 0 2 (.ok ()) ++
    posted 1 (parcel 1 none)

/-- The clock stands still for two ticks. -/
def halting (calls : Nat) : Manner :=
  { clock := if calls < 12 then epoch else epoch.after (Span.ofSeconds 300) }

/-- The second parcel is given up, and the first one is delivered when its claim has run out. -/
theorem parcels_run_out :
    (Program.run (Scene.answer halting) (eager.drain 7)
        ⟨((sharing Unit 2).world parcelsAbandoned).store, 0, []⟩).2.store.rows.map
          (fun row => (row.status, row.retries, row.deferrals, row.deadLettered)) =
        [(.processed, 1, 0, false), (.stored, 0, 2, true)] ∧
      eager.RunsOut ((sharing Unit 2).world parcelsAbandoned).store := by
  have hM : 0 < eager.settings.maxRetries := by decide
  exact ⟨by decide +kernel, work_runs_out hM parcelsAbandoned⟩

end Courier
