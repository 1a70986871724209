import Courier.Proofs.Custody.Ceiling
import Courier.Proofs.Store.Batches
import Courier.Publishing.Backoff
/-
Rows and the causes that they wait for.  A row and its cause are put off by the same backoff, one for
each deferral and the other for each failed attempt.  While ticks handle their batches row by row, the
row is never ahead of its cause: it has been deferred no more often than the cause was tried.
-/
namespace Courier

namespace Row

/-- An outgoing row of the message that has caused another row. -/
def Causes (cause row : Row) : Prop :=
  cause.delivery ≠ .inbox ∧ row.causationId = some cause.messageId

/-- The row has no cause, or none that is outgoing. -/
def Uncaused (row : Row) (rows : List Row) : Prop :=
  ∀ cause ∈ rows, ¬ cause.Causes row

/-- All causes of the row come before it, and none of them has a cause itself. -/
def Follows (row : Row) (rows : List Row) : Prop :=
  ∀ cause ∈ rows, cause.Causes row → cause.Precedes row ∧ cause.Uncaused rows

theorem SameMessage.refl (row : Row) : row.SameMessage row :=
  ⟨rfl, rfl, rfl, rfl, rfl, rfl, rfl, rfl⟩

namespace SameMessage

variable {cause later row after : Row}

theorem causes_iff (hcause : cause.SameMessage later) (hrow : row.SameMessage after) :
    later.Causes after ↔ cause.Causes row := by
  rw [Causes, Causes, hcause.delivery, hcause.messageId, hrow.causationId]

theorem precedes_iff (hcause : cause.SameMessage later) (hrow : row.SameMessage after) :
    later.Precedes after ↔ cause.Precedes row := by
  rw [Precedes, Precedes, notAfter_iff, notAfter_iff, hcause.id, hcause.createdAt, hrow.id,
    hrow.createdAt]

end SameMessage

end Row

/-- Every row is still there, in some version. -/
def Kept (rows more : List Row) : Prop :=
  ∀ row ∈ rows, ∃ after ∈ more, row.SameMessage after

section kept

variable {rows more : List Row} {row after : Row}

/-- What has no cause later on has none now. -/
theorem Row.Uncaused.earlier (h : after.Uncaused more) (hkept : Kept rows more)
    (hsame : row.SameMessage after) : row.Uncaused rows := by
  intro cause hcause hcauses
  obtain ⟨later, hlater, hagain⟩ := hkept cause hcause
  exact h later hlater ((hagain.causes_iff hsame).2 hcauses)

theorem Row.Follows.earlier (h : after.Follows more) (hkept : Kept rows more)
    (hsame : row.SameMessage after) : row.Follows rows := by
  intro cause hcause hcauses
  obtain ⟨later, hlater, hagain⟩ := hkept cause hcause
  obtain ⟨hbefore, huncaused⟩ := h later hlater ((hagain.causes_iff hsame).2 hcauses)
  exact ⟨(hagain.precedes_iff hsame).1 hbefore, huncaused.earlier hkept hagain⟩

end kept

/-- A row has waited no longer than its cause was tried.  In a batch the cause has its turn first. -/
structure Spared (batch : List Row) (row cause : Row) : Prop where
  le : row.deferrals ≤ cause.retries
  next : row.deferrals = cause.retries → cause.status ≠ .processing →
    cause.nextAttemptAt ≤ row.nextAttemptAt
  turn : row ∈ batch → cause ∈ batch ∨ row.deferrals < cause.retries

/-- How rows stand in the middle of a tick, with the rest of its batch still to be handled; between
ticks there is no batch.  The rows that are told of are those whose causes were all there when they
were committed. -/
structure Paced (tracked : RowId → Prop) (M : Count) (backoff : Backoff) (now : Instant)
    (batch rows : List Row) : Prop where
  distinct : DistinctNumbers rows
  bounded : ∀ row ∈ rows, row.Bounded M
  /-- Nothing is claimed but the row that has its turn. -/
  claimed : ∀ row ∈ rows, row.status = .processing → batch.head? = some row
  current : ∀ row ∈ batch, row ∈ rows ∧ row.isTerminal = false
  sorted : batch.Pairwise Row.Precedes
  resolved : ∀ row ∈ rows, row.status = .processing → tracked row.id →
    ∀ cause ∈ rows, cause.Causes row → cause.status = .processed
  /-- What waits for nothing is put off only by its own failures. -/
  timed : ∀ cause ∈ rows, cause.Uncaused rows → cause.isTerminal = false →
    cause.status ≠ .processing →
      (cause.retries = 0 → cause.nextAttemptAt = cause.createdAt) ∧
      (0 < cause.retries → cause.nextAttemptAt ≤ now.after (backoff.delay cause.retries))
  spared : ∀ row ∈ rows, tracked row.id → row.Follows rows →
    ∀ cause ∈ rows, cause.Causes row → cause.isTerminal = false → Spared batch row cause
  mourned : ∀ row ∈ rows, tracked row.id → row.Follows rows → row.deadLettered = true →
    M ≤ row.deferrals → ∃ cause ∈ rows, cause.Causes row ∧ cause.deadLettered = true

/-- How a row comes out of its turn: claimed and still at hand, or done with for this tick. -/
structure Advances (tracked : RowId → Prop) (M : Count) (backoff : Backoff) (now : Instant)
    (rows rest batch : List Row) (row after : Row) : Prop where
  same : row.SameMessage after
  bounded : after.Bounded M
  place : batch = rest ∨ batch = after :: rest ∧ after.isTerminal = false
  claimed : after.status = .processing → batch = after :: rest ∧ after.retries = row.retries ∧
    (tracked row.id → ∀ cause ∈ rows, cause.Causes row → cause.status = .processed)
  tried : row.Uncaused rows → after.isTerminal = false → after.status ≠ .processing →
    row.retries < after.retries ∧ after.nextAttemptAt = now.after (backoff.delay after.retries)
  spared : tracked row.id → row.Follows rows → ∀ cause ∈ rows, cause.Causes row →
    cause.isTerminal = false → row.deferrals < cause.retries → Spared batch after cause
  mourned : tracked row.id → row.Follows rows → after.deadLettered = true → M ≤ after.deferrals →
    ∃ cause ∈ rows, cause.Causes row ∧ cause.deadLettered = true

section

variable {tracked : RowId → Prop} {M : Count} {backoff : Backoff} {now : Instant}
  {batch rest rows : List Row} {row after : Row}

namespace Advances

/-- Those that had no turn are in what is left of the batch if they were in it before. -/
theorem mem_left (h : Advances tracked M backoff now rows rest batch row after) {other : Row}
    (hother : other ∈ rest) : other ∈ batch := by
  rcases h.place with rfl | ⟨rfl, _⟩
  · exact hother
  · exact List.mem_cons_of_mem _ hother

theorem mem_rest_of_left (h : Advances tracked M backoff now rows rest batch row after)
    {other : Row} (hid : other.id ≠ row.id) (hother : other ∈ batch) : other ∈ rest := by
  rcases h.place with rfl | ⟨rfl, _⟩
  · exact hother
  · refine (List.mem_cons.1 hother).resolve_left fun heq => hid ?_
    rw [heq]
    exact h.same.id

/-- The row that has had its turn as the cause of another one. -/
theorem spared_by_tried (h : Advances tracked M backoff now rows rest batch row after) {other : Row}
    (huncaused : row.Uncaused rows) (hopen : after.isTerminal = false)
    (hspared : Spared (row :: rest) other row) : Spared batch other after := by
  by_cases hstatus : after.status = .processing
  · obtain ⟨rfl, hretries, _⟩ := h.claimed hstatus
    exact ⟨hretries ▸ hspared.le, fun _ hfree => absurd hstatus hfree,
      fun _ => Or.inl List.mem_cons_self⟩
  · obtain ⟨hmore, _⟩ := h.tried huncaused hopen hstatus
    have hlt : other.deferrals < after.retries := UInt32.lt_of_le_of_lt hspared.le hmore
    exact ⟨UInt32.le_of_lt hlt, fun heq => absurd heq (UInt32.ne_of_lt hlt), fun _ => Or.inr hlt⟩

/-- A cause that had no turn. -/
theorem spared_still (h : Advances tracked M backoff now rows rest batch row after)
    {other cause : Row} (hother : other.id ≠ row.id) (hcause : cause.id ≠ row.id)
    (hspared : Spared (row :: rest) other cause) : Spared batch other cause := by
  refine ⟨hspared.le, hspared.next, fun hleft => ?_⟩
  have hrest := h.mem_rest_of_left hother hleft
  refine (hspared.turn (List.mem_cons_of_mem _ hrest)).imp (fun hmem => ?_) id
  refine h.mem_left ((List.mem_cons.1 hmem).resolve_left fun heq => hcause ?_)
  rw [heq]

end Advances

namespace Paced

theorem nothing : Paced tracked M backoff now [] [] where
  distinct := .nil
  bounded _ hrow := nomatch hrow
  claimed _ hrow := nomatch hrow
  current _ hrow := nomatch hrow
  sorted := .nil
  resolved _ hrow := nomatch hrow
  timed _ hrow := nomatch hrow
  spared _ hrow := nomatch hrow
  mourned _ hrow := nomatch hrow

theorem row_mem (h : Paced tracked M backoff now (row :: rest) rows) : row ∈ rows :=
  (h.current row List.mem_cons_self).1

theorem row_open (h : Paced tracked M backoff now (row :: rest) rows) : row.isTerminal = false :=
  (h.current row List.mem_cons_self).2

/-- The rows after one turn: the row that has had it, and all others as they were. -/
theorem mem_advanced (h : Paced tracked M backoff now (row :: rest) rows)
    (hsame : row.SameMessage after) {other : Row} :
    other ∈ Store.changeRow rows after ↔ other = after ∨ other ∈ rows ∧ other.id ≠ row.id := by
  rw [Store.mem_changeRow ⟨row, h.row_mem, hsame.id.symm⟩, hsame.id]

theorem kept_advanced (h : Paced tracked M backoff now (row :: rest) rows)
    (hsame : row.SameMessage after) : Kept rows (Store.changeRow rows after) := by
  intro other hother
  by_cases hid : other.id = row.id
  · obtain rfl := h.distinct.eq_of_id_eq hother h.row_mem hid
    exact ⟨after, (h.mem_advanced hsame).2 (Or.inl rfl), hsame⟩
  · exact ⟨other, (h.mem_advanced hsame).2 (Or.inr ⟨hother, hid⟩), .refl other⟩

/-- What comes before the row at hand has had its turn. -/
theorem not_mem_of_precedes (h : Paced tracked M backoff now (row :: rest) rows) {cause : Row}
    (hbefore : cause.Precedes row) : cause ∉ row :: rest := by
  intro hmem
  rcases List.mem_cons.1 hmem with rfl | hrest
  · exact hbefore.2 rfl
  · exact hbefore.asymm ((List.pairwise_cons.1 h.sorted).1 cause hrest)

theorem rest_mem (h : Paced tracked M backoff now (row :: rest) rows) {other : Row}
    (hother : other ∈ rest) : other ∈ rows ∧ other.id ≠ row.id :=
  ⟨(h.current other (List.mem_cons_of_mem _ hother)).1,
    ((List.pairwise_cons.1 h.sorted).1 other hother).2.symm⟩

/-- Nobody but the row at hand is claimed. -/
theorem not_claimed (h : Paced tracked M backoff now (row :: rest) rows) {other : Row}
    (hother : other ∈ rows) (hid : other.id ≠ row.id) : other.status ≠ .processing := by
  intro hstatus
  obtain rfl := Option.some.inj (h.claimed other hother hstatus)
  exact hid rfl

/-- What is still to be handled is there, and open. -/
theorem current_advanced (h : Paced tracked M backoff now (row :: rest) rows)
    (hafter : Advances tracked M backoff now rows rest batch row after) :
    ∀ other ∈ batch, other ∈ Store.changeRow rows after ∧ other.isTerminal = false := by
  have hrest : ∀ other ∈ rest, other ∈ Store.changeRow rows after ∧ other.isTerminal = false :=
    fun other hother => ⟨(h.mem_advanced hafter.same).2 (Or.inr (h.rest_mem hother)),
      (h.current other (List.mem_cons_of_mem _ hother)).2⟩
  rcases hafter.place with rfl | ⟨rfl, hopen⟩
  · exact hrest
  · exact List.forall_mem_cons.2 ⟨⟨(h.mem_advanced hafter.same).2 (Or.inl rfl), hopen⟩, hrest⟩

theorem sorted_advanced (h : Paced tracked M backoff now (row :: rest) rows)
    (hafter : Advances tracked M backoff now rows rest batch row after) :
    batch.Pairwise Row.Precedes := by
  obtain ⟨hrow, hrest⟩ := List.pairwise_cons.1 h.sorted
  rcases hafter.place with rfl | ⟨rfl, _⟩
  · exact hrest
  · refine List.pairwise_cons.2 ⟨fun other hother => ?_, hrest⟩
    exact (hafter.same.precedes_iff (.refl other)).2 (hrow other hother)

theorem spared_advanced (h : Paced tracked M backoff now (row :: rest) rows)
    (hafter : Advances tracked M backoff now rows rest batch row after) :
    ∀ other ∈ Store.changeRow rows after, tracked other.id → other.Follows (Store.changeRow rows after) →
      ∀ cause ∈ Store.changeRow rows after, cause.Causes other → cause.isTerminal = false →
        Spared batch other cause := by
  have hsame := hafter.same
  have hkept := h.kept_advanced hsame
  intro other hother htracked hfollows cause hcause hcauses hopen
  obtain ⟨hbefore, huncaused⟩ := hfollows cause hcause hcauses
  rcases (h.mem_advanced hsame).1 hother with rfl | ⟨hold, hid⟩
  · have htracked : tracked row.id := hsame.id ▸ htracked
    have hfollowed := hfollows.earlier hkept hsame
    rcases (h.mem_advanced hsame).1 hcause with rfl | ⟨hcause, hne⟩
    · exact absurd rfl hbefore.2
    · have hcauses := (Row.SameMessage.causes_iff (.refl cause) hsame).1 hcauses
      have hspared := h.spared row h.row_mem htracked hfollowed cause hcause hcauses hopen
      have hearlier := h.not_mem_of_precedes ((Row.SameMessage.precedes_iff (.refl cause) hsame).1 hbefore)
      have hlt := (hspared.turn List.mem_cons_self).resolve_left hearlier
      exact hafter.spared htracked hfollowed cause hcause hcauses hopen hlt
  · have hfollowed := hfollows.earlier hkept (.refl other)
    rcases (h.mem_advanced hsame).1 hcause with rfl | ⟨hcause, hne⟩
    · have hcauses := (hsame.causes_iff (.refl other)).1 hcauses
      have hspared := h.spared other hold htracked hfollowed row h.row_mem hcauses h.row_open
      exact hafter.spared_by_tried (huncaused.earlier hkept hsame) hopen hspared
    · have hspared := h.spared other hold htracked hfollowed cause hcause hcauses hopen
      exact hafter.spared_still hid hne hspared

theorem timed_advanced (h : Paced tracked M backoff now (row :: rest) rows)
    (hafter : Advances tracked M backoff now rows rest batch row after) :
    ∀ cause ∈ Store.changeRow rows after, cause.Uncaused (Store.changeRow rows after) →
      cause.isTerminal = false → cause.status ≠ .processing →
        (cause.retries = 0 → cause.nextAttemptAt = cause.createdAt) ∧
        (0 < cause.retries → cause.nextAttemptAt ≤ now.after (backoff.delay cause.retries)) := by
  intro cause hcause huncaused hopen hfree
  have hkept := h.kept_advanced hafter.same
  rcases (h.mem_advanced hafter.same).1 hcause with rfl | ⟨hold, _⟩
  · obtain ⟨hmore, hnext⟩ := hafter.tried (huncaused.earlier hkept hafter.same) hopen hfree
    refine ⟨fun hzero => ?_, fun _ => ?_⟩
    · rw [hzero] at hmore
      exact absurd hmore UInt32.not_lt_zero
    · rw [hnext]
      exact Int.le_refl _
  · exact h.timed cause hold (huncaused.earlier hkept (.refl cause)) hopen hfree

/-- A dead letter stays among the causes of what it has caused. -/
theorem dead_advanced (h : Paced tracked M backoff now (row :: rest) rows)
    (hsame : row.SameMessage after) {other last : Row} (hlast : other.SameMessage last)
    (hdead : ∃ cause ∈ rows, cause.Causes other ∧ cause.deadLettered = true) :
    ∃ cause ∈ Store.changeRow rows after, cause.Causes last ∧ cause.deadLettered = true := by
  obtain ⟨cause, hcause, hcauses, hdead⟩ := hdead
  have hne : cause.id ≠ row.id := by
    intro hid
    obtain rfl := h.distinct.eq_of_id_eq hcause h.row_mem hid
    have hopen := h.row_open
    simp [hdead] at hopen
  exact ⟨cause, (h.mem_advanced hsame).2 (Or.inr ⟨hcause, hne⟩),
    (Row.SameMessage.causes_iff (.refl cause) hlast).2 hcauses, hdead⟩

theorem resolved_advanced (h : Paced tracked M backoff now (row :: rest) rows)
    (hafter : Advances tracked M backoff now rows rest batch row after) :
    ∀ other ∈ Store.changeRow rows after, other.status = .processing → tracked other.id →
      ∀ cause ∈ Store.changeRow rows after, cause.Causes other → cause.status = .processed := by
  have hsame := hafter.same
  intro other hother hstatus htracked cause hcause hcauses
  rcases (h.mem_advanced hsame).1 hother with rfl | ⟨hold, hid⟩
  · have htracked : tracked row.id := hsame.id ▸ htracked
    have hresolved := (hafter.claimed hstatus).2.2 htracked
    rcases (h.mem_advanced hsame).1 hcause with rfl | ⟨hcause, _⟩
    · have hdone := hresolved row h.row_mem ((hsame.causes_iff hsame).1 hcauses)
      have hopen := h.row_open
      simp [hdone] at hopen
    · exact hresolved cause hcause ((Row.SameMessage.causes_iff (.refl cause) hsame).1 hcauses)
  · exact absurd hstatus (h.not_claimed hold hid)

/-- A tick in which one row has had its turn. -/
theorem advance (h : Paced tracked M backoff now (row :: rest) rows)
    (hafter : Advances tracked M backoff now rows rest batch row after) :
    Paced tracked M backoff now batch (Store.changeRow rows after) where
  distinct := h.distinct.of_map_id_eq (Store.map_id_changeRow rows after)
  bounded other hother := by
    rcases (h.mem_advanced hafter.same).1 hother with rfl | ⟨hold, _⟩
    · exact hafter.bounded
    · exact h.bounded other hold
  claimed other hother hstatus := by
    rcases (h.mem_advanced hafter.same).1 hother with rfl | ⟨hold, hid⟩
    · rw [(hafter.claimed hstatus).1]
      rfl
    · exact absurd hstatus (h.not_claimed hold hid)
  current := h.current_advanced hafter
  sorted := h.sorted_advanced hafter
  resolved := h.resolved_advanced hafter
  timed := h.timed_advanced hafter
  spared := h.spared_advanced hafter
  mourned other hother htracked hfollows hdead hceiling := by
    have hsame := hafter.same
    have hkept := h.kept_advanced hsame
    rcases (h.mem_advanced hsame).1 hother with rfl | ⟨hold, _⟩
    · exact h.dead_advanced hsame hsame (hafter.mourned (hsame.id ▸ htracked)
        (hfollows.earlier hkept hsame) hdead hceiling)
    · exact h.dead_advanced hsame (.refl other) (h.mourned other hold htracked
        (hfollows.earlier hkept (.refl other)) hdead hceiling)

/-- Time goes on between ticks. -/
theorem later (h : Paced tracked M backoff now [] rows) {soon : Instant} (hnow : now.leap = false)
    (hsoon : soon.leap = false) (hle : now ≤ soon) : Paced tracked M backoff soon [] rows :=
  { h with
    timed := fun cause hcause huncaused hopen hfree => by
      obtain ⟨hzero, hmore⟩ := h.timed cause hcause huncaused hopen hfree
      exact ⟨hzero, fun hpositive => Instant.le_trans (hmore hpositive)
        (Instant.after_le_after _ hnow hsoon hle)⟩ }

end Paced

/-- Others have committed fresh rows.  None of them has caused a row that is told of. -/
structure Joined (tracked : RowId → Prop) (rows more : List Row) : Prop where
  distinct : DistinctNumbers rows → DistinctNumbers more
  old : ∀ row ∈ rows, row ∈ more
  fresh : ∀ row ∈ more, row ∈ rows ∨ ∃ id draft now, row = Row.fresh id draft now
  apart : ∀ row ∈ rows, tracked row.id → ∀ cause ∈ more, cause.Causes row → cause ∈ rows

namespace Joined

variable {more last : List Row}

theorem refl (rows : List Row) : Joined tracked rows rows where
  distinct := id
  old _ hrow := hrow
  fresh _ hrow := Or.inl hrow
  apart _ _ _ _ hcause _ := hcause

theorem trans (h : Joined tracked rows more) (hlast : Joined tracked more last) :
    Joined tracked rows last where
  distinct hdistinct := hlast.distinct (h.distinct hdistinct)
  old row hrow := hlast.old row (h.old row hrow)
  fresh row hrow := (hlast.fresh row hrow).elim (h.fresh row) Or.inr
  apart row hrow htracked cause hcause hcauses :=
    h.apart row hrow htracked cause (hlast.apart row (h.old row hrow) htracked cause hcause hcauses)
      hcauses

theorem kept (h : Joined tracked rows more) : Kept rows more :=
  fun row hrow => ⟨row, h.old row hrow, .refl row⟩

end Joined

namespace Paced

variable {more : List Row}

theorem timed_joined (h : Paced tracked M backoff now batch rows) (hmore : Joined tracked rows more) :
    ∀ cause ∈ more, cause.Uncaused more → cause.isTerminal = false → cause.status ≠ .processing →
      (cause.retries = 0 → cause.nextAttemptAt = cause.createdAt) ∧
      (0 < cause.retries → cause.nextAttemptAt ≤ now.after (backoff.delay cause.retries)) := by
  intro cause hcause huncaused hopen hfree
  rcases hmore.fresh cause hcause with hthere | ⟨id, draft, created, rfl⟩
  · exact h.timed cause hthere (huncaused.earlier hmore.kept (.refl cause)) hopen hfree
  · exact ⟨fun _ => rfl, fun hpositive => absurd hpositive UInt32.not_lt_zero⟩

/-- A fresh row has not waited yet, and if its cause was not tried yet, then that is due first. -/
theorem spared_joined (h : Paced tracked M backoff now batch rows) (hmore : Joined tracked rows more) :
    ∀ row ∈ more, tracked row.id → row.Follows more → ∀ cause ∈ more, cause.Causes row →
      cause.isTerminal = false → Spared batch row cause := by
  intro row hrow htracked hfollows cause hcause hcauses hopen
  by_cases hthere : row ∈ rows
  · have hfollowed := hfollows.earlier hmore.kept (.refl row)
    have hold := hmore.apart row hthere htracked cause hcause hcauses
    exact h.spared row hthere htracked hfollowed cause hold hcauses hopen
  · obtain ⟨hbefore, huncaused⟩ := hfollows cause hcause hcauses
    obtain ⟨id, draft, created, rfl⟩ := (hmore.fresh row hrow).resolve_left hthere
    refine ⟨UInt32.zero_le, fun hzero hfree => ?_, fun hmem => ?_⟩
    · rw [(h.timed_joined hmore cause hcause huncaused hopen hfree).1 hzero.symm]
      exact hbefore.createdAt_le
    · exact absurd (h.current _ hmem).1 hthere

/-- Whatever others commit, the rows stay in pace. -/
theorem join (h : Paced tracked M backoff now batch rows) (hM : 0 < M)
    (hmore : Joined tracked rows more) : Paced tracked M backoff now batch more where
  distinct := hmore.distinct h.distinct
  bounded row hrow := by
    rcases hmore.fresh row hrow with hthere | ⟨id, draft, created, rfl⟩
    · exact h.bounded row hthere
    · exact .fresh hM id draft created
  claimed row hrow hstatus := by
    rcases hmore.fresh row hrow with hthere | ⟨id, draft, created, rfl⟩
    · exact h.claimed row hthere hstatus
    · cases hstatus
  current row hrow := ⟨hmore.old row (h.current row hrow).1, (h.current row hrow).2⟩
  sorted := h.sorted
  resolved row hrow hstatus htracked cause hcause hcauses := by
    rcases hmore.fresh row hrow with hthere | ⟨id, draft, created, rfl⟩
    · exact h.resolved row hthere hstatus htracked cause
        (hmore.apart row hthere htracked cause hcause hcauses) hcauses
    · cases hstatus
  timed := h.timed_joined hmore
  spared := h.spared_joined hmore
  mourned row hrow htracked hfollows hdead hceiling := by
    rcases hmore.fresh row hrow with hthere | ⟨id, draft, created, rfl⟩
    · obtain ⟨cause, hcause, hmourned⟩ := h.mourned row hthere htracked
        (hfollows.earlier hmore.kept (.refl row)) hdead hceiling
      exact ⟨cause, hmore.old cause hcause, hmourned⟩
    · cases hdead

end Paced

section turns

variable {custodian : Custodian}

/-- An open row that is not claimed is due when its time has come. -/
theorem DueQuery.selects_of_open {limit : Nat} (hopen : row.isTerminal = false)
    (hfree : row.status ≠ .processing) (hbounded : row.Bounded M) (hnow : row.nextAttemptAt ≤ now) :
    (DueQuery.all now M limit).selects row = true := by
  obtain ⟨hunprocessed, hlive⟩ := Row.isTerminal_eq_false_iff.1 hopen
  refine (selects_iff rfl).2 ⟨hlive, hnow, ?_⟩
  cases hstatus : row.status with
  | stored => exact Or.inl rfl
  | failed => exact Or.inr ⟨Or.inl rfl, (hbounded.live hlive).1⟩
  | processing => exact absurd hstatus hfree
  | processed => exact absurd hstatus hunprocessed

theorem DueQuery.open_of_selects {limit : Nat} (h : (DueQuery.all now M limit).selects row = true) :
    row.isTerminal = false := by
  obtain ⟨hlive, _, hstatus⟩ := (selects_iff rfl).1 h
  refine Row.isTerminal_eq_false_iff.2 ⟨fun hprocessed => ?_, hlive⟩
  simp [hprocessed] at hstatus

namespace Paced

/-- A batch that is fetched between two ticks has the cause of each of its rows in it, or the cause
is further on. -/
theorem fetched {store : Store} (h : Paced tracked M backoff now [] store.rows) (limit : Nat) :
    Paced tracked M backoff now (store.due (DueQuery.all now M limit)) store.rows := by
  have hfree : ∀ row ∈ store.rows, row.status ≠ .processing := fun row hrow hstatus =>
    nomatch h.claimed row hrow hstatus
  refine { h with
    claimed := fun row hrow hstatus => absurd hstatus (hfree row hrow)
    current := fun row hrow => ?_
    sorted := Store.due_sorted h.distinct
    spared := fun row hrow htracked hfollows cause hcause hcauses hopen => ?_ }
  · obtain ⟨hthere, hdue⟩ := Store.mem_due hrow
    exact ⟨hthere, DueQuery.open_of_selects hdue⟩
  · obtain ⟨hle, hnext, _⟩ := h.spared row hrow htracked hfollows cause hcause hcauses hopen
    refine ⟨hle, hnext, fun hdue => ?_⟩
    by_cases hlevel : row.deferrals = cause.retries
    · have hbefore := hnext hlevel (hfree cause hcause)
      have hnow := Instant.le_trans hbefore (DueQuery.le_of_selects (Store.mem_due hdue).2)
      have hselects : (DueQuery.all now M limit).selects cause = true :=
        DueQuery.selects_of_open hopen (hfree cause hcause) (h.bounded cause hcause) hnow
      exact Or.inl (Store.mem_due_of_precedes h.distinct hcause hselects hdue
        (hfollows cause hcause hcauses).1)
    · exact Or.inr (UInt32.lt_of_le_of_ne hle hlevel)

theorem row_bounded (h : Paced tracked M backoff now (row :: rest) rows) : row.Bounded M :=
  h.bounded row h.row_mem

theorem row_live (h : Paced tracked M backoff now (row :: rest) rows) : row.deadLettered = false :=
  (Row.isTerminal_eq_false_iff.1 h.row_open).2

/-- Nothing forbids to claim the row that has its turn. -/
theorem refusal?_eq_none (h : Paced tracked M backoff now (row :: rest) rows)
    (hfree : row.status ≠ .processing) : row.refusal? .processing M = none := by
  have hroom := (h.row_bounded.live h.row_live).1
  refine Row.refusal?_eq_none_iff.2 ⟨?_, h.row_live, fun _ => hroom⟩
  cases hstatus : row.status with
  | stored => rfl
  | failed => rfl
  | processing => exact absurd hstatus hfree
  | processed => exact absurd hstatus (Row.isTerminal_eq_false_iff.1 h.row_open).1

theorem mayDefer (h : Paced tracked M backoff now (row :: rest) rows)
    (hfree : row.status ≠ .processing) : Custodian.mayDefer row = true := by
  refine Custodian.mayDefer_iff.2 ⟨h.row_live, ?_⟩
  cases hstatus : row.status with
  | stored => exact Or.inl rfl
  | failed => exact Or.inr rfl
  | processing => exact absurd hstatus hfree
  | processed => exact absurd hstatus (Row.isTerminal_eq_false_iff.1 h.row_open).1

/-- The row that has its turn is claimed. -/
theorem claim (h : Paced tracked M backoff now (row :: rest) rows) (hmax : custodian.maxRetries = M)
    (hfree : row.status ≠ .processing)
    (hresolved : tracked row.id → ∀ cause ∈ rows, cause.Causes row → cause.status = .processed) :
    Paced tracked M backoff now (row.apply (custodian.claimChange row now) :: rest)
      (Store.changeRow rows (row.apply (custodian.claimChange row now))) := by
  have hlook : row.refusal? .processing custodian.maxRetries = none := hmax ▸ h.refusal?_eq_none hfree
  have hbounded := (Custodian.Permits.claim now hlook).bounded (hmax ▸ h.row_bounded)
  have hlive : (row.apply (custodian.claimChange row now)).deadLettered = false := h.row_live
  refine h.advance ⟨row.sameMessage_apply _, hmax ▸ hbounded, Or.inr ⟨rfl, ?_⟩,
    fun _ => ⟨rfl, rfl, hresolved⟩, fun _ _ hother => absurd rfl hother, ?_, ?_⟩
  · exact Row.isTerminal_eq_false_iff.2 ⟨nofun, hlive⟩
  · intro htracked _ cause hcause hcauses hopen
    exact absurd (hresolved htracked cause hcause hcauses) (Row.isTerminal_eq_false_iff.1 hopen).1
  · intro _ _ hdead
    rw [hlive] at hdead
    cases hdead

/-- The claim that has its turn is settled. -/
theorem settle {claimed : Row} (h : Paced tracked M backoff now (claimed :: rest) rows)
    (hstatus : claimed.status = .processing) (hsame : claimed.SameMessage after)
    (hbounded : after.Bounded M) (hfree : after.status ≠ .processing)
    (hdeferrals : after.deferrals = claimed.deferrals)
    (htried : after.isTerminal = false → claimed.retries < after.retries ∧
      after.nextAttemptAt = now.after (backoff.delay after.retries)) :
    Paced tracked M backoff now rest (Store.changeRow rows after) := by
  refine h.advance ⟨hsame, hbounded, Or.inl rfl, fun hheld => absurd hheld hfree,
    fun _ hopen _ => htried hopen, ?_, ?_⟩
  · intro htracked _ cause hcause hcauses hopen
    have hresolved := h.resolved claimed h.row_mem hstatus htracked cause hcause hcauses
    exact absurd hresolved (Row.isTerminal_eq_false_iff.1 hopen).1
  · intro _ _ _ hceiling
    have hroom := (h.row_bounded.live h.row_live).2
    rw [hdeferrals] at hceiling
    exact absurd hroom (UInt32.not_lt.2 hceiling)

/-- The row that has its turn still waits for a cause. -/
theorem postpone (h : Paced tracked M backoff now (row :: rest) rows)
    (hmax : custodian.maxRetries = M) (hfree : row.status ≠ .processing)
    (hwaits : ∃ cause ∈ rows, cause.Causes row ∧ cause.status ≠ .processed) :
    Paced tracked M backoff now rest (Store.changeRow rows (row.apply (custodian.deferChange row
      (now.after (backoff.delay (Count.next row.deferrals)))))) := by
  have hbounded := (Custodian.Permits.postpone (now.after (backoff.delay (Count.next row.deferrals)))
    (h.mayDefer hfree)).bounded (hmax ▸ h.row_bounded)
  generalize hnext : now.after (backoff.delay (Count.next row.deferrals)) = next at hbounded ⊢
  have hafter : (row.apply (custodian.deferChange row next)).status = row.status ∧
      (row.apply (custodian.deferChange row next)).deferrals = Count.next row.deferrals ∧
      (row.apply (custodian.deferChange row next)).nextAttemptAt = next := by
    rcases custodian.deferChange_cases row next with ⟨_, heq⟩ | ⟨_, heq⟩
    · rw [heq]
      exact ⟨rfl, rfl, rfl⟩
    · rw [heq]
      exact ⟨rfl, rfl, rfl⟩
  obtain ⟨hstatus, hdeferrals, htime⟩ := hafter
  have hbehind : tracked row.id → row.Follows rows → ∀ cause ∈ rows, cause.Causes row →
      cause.isTerminal = false → row.deferrals < cause.retries := by
    intro htracked hfollows cause hcause hcauses hopen
    have hspared := h.spared row h.row_mem htracked hfollows cause hcause hcauses hopen
    exact (hspared.turn List.mem_cons_self).resolve_left
      (h.not_mem_of_precedes (hfollows cause hcause hcauses).1)
  refine h.advance ⟨row.sameMessage_apply _, hmax ▸ hbounded, Or.inl rfl, ?_, ?_, ?_, ?_⟩
  · intro hheld
    rw [hstatus] at hheld
    exact absurd hheld hfree
  · intro huncaused
    obtain ⟨cause, hcause, hcauses, _⟩ := hwaits
    exact absurd hcauses (huncaused cause hcause)
  · intro htracked hfollows cause hcause hcauses hopen hlt
    refine ⟨?_, fun hlevel hcalm => ?_, fun hmem => ?_⟩
    · rw [hdeferrals]
      exact Count.next_le_of_lt hlt
    · rw [hdeferrals] at hlevel
      rw [htime, ← hnext, hlevel]
      have hpositive : 0 < cause.retries := UInt32.lt_of_le_of_lt UInt32.zero_le hlt
      exact (h.timed cause hcause (hfollows cause hcause hcauses).2 hopen hcalm).2 hpositive
    · exact absurd rfl (h.rest_mem hmem).2
  · intro htracked hfollows _ hceiling
    obtain ⟨cause, hcause, hcauses, hwaiting⟩ := hwaits
    refine ⟨cause, hcause, hcauses, ?_⟩
    cases hdead : cause.deadLettered with
    | true => rfl
    | false =>
        have hopen := Row.isTerminal_eq_false_iff.2 ⟨hwaiting, hdead⟩
        have hlt := hbehind htracked hfollows cause hcause hcauses hopen
        rw [hdeferrals] at hceiling
        have hroom := ((h.bounded cause hcause).live hdead).1
        have hle := UInt32.le_trans hceiling (Count.next_le_of_lt hlt)
        exact absurd hroom (UInt32.not_lt.2 hle)

end Paced

end turns

end

end Courier
