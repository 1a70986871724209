import Courier.Proofs.Custody.Ceiling
import Courier.Proofs.Interleaving.Candid
import Courier.Proofs.Publishing.Attempts
import Courier.Proofs.Publishing.Tallies
import Mathlib.Algebra.BigOperators.Fin
/-
Reports and rows.  A store that does nothing when it fails tells publishers all that they do.  What
their reports add up to is then what the rows show: how many are processed, how many are dead letters,
and what their counters stand at.
-/
namespace Courier

variable {κ : Type}

/-- A counter of a row without the step by which the row has become a dead letter. -/
def Row.counted (M : Count) (row : Row) (count : Count) : Nat :=
  if row.deadLettered ∧ count = M then count.toNat - 1 else count.toNat

namespace Row

variable {M count : Count} {row : Row}

theorem counted_of_live (hlive : row.deadLettered = false) :
    row.counted M count = count.toNat := by
  simp [counted, hlive]

theorem counted_of_lt (hbelow : count < M) : row.counted M count = count.toNat := by
  have hne : count ≠ M := UInt32.ne_of_lt hbelow
  simp [counted, hne]

/-- The step that reaches the ceiling makes a dead letter and does not count. -/
theorem counted_of_last (hbelow : count < M) (hlast : M ≤ Count.next count)
    (hdead : row.deadLettered = true) : row.counted M (Count.next count) = count.toNat := by
  have hsame : Count.next count = M := Count.next_eq_of_le hbelow hlast
  have hnext := Count.next_toNat_of_lt hbelow
  rw [hsame] at hnext ⊢
  rw [counted, if_pos ⟨hdead, rfl⟩]
  omega

end Row

/-- What deeds leave on a row that was neither processed nor dead. -/
structure Marks (M : Count) (row after : Row) (done : List Deed) : Prop where
  processed : (if after.status = .processed then 1 else 0) = done.count .processed
  dead : (if after.deadLettered then 1 else 0) = done.count .deadLettered
  retries : after.counted M after.retries =
    row.retries.toNat + (done.count .retried + done.count .reclaimed)
  deferrals : after.counted M after.deferrals = row.deferrals.toNat + done.count .deferred

/-- Every change leaves the mark of its deed. -/
theorem Custodian.Permits.marks {custodian : Custodian} {row : Row} {change : Change}
    (hpermits : custodian.Permits row change) (hbounded : row.Bounded custodian.maxRetries) :
    Marks custodian.maxRetries row (row.apply change) change.deed?.toList := by
  have hlive : row.deadLettered = false := hpermits.lawful.live
  obtain ⟨hretries, hdeferrals⟩ := hbounded.live hlive
  cases hpermits with
  | claim now hlook =>
      rw [deed?_claim hlook]
      exact ⟨rfl, if_neg (by simp [Row.apply, claimChange, Change.of, hlive]),
        Row.counted_of_lt hretries, Row.counted_of_lt hdeferrals⟩
  | processed now hlook =>
      rw [deed?_processed hlook]
      exact ⟨rfl, if_neg (by simp [Row.apply, processedChange, Change.of, hlive]),
        Row.counted_of_lt hretries, Row.counted_of_lt hdeferrals⟩
  | failure reason now next hlook =>
      rw [deed?_failure hlook]
      by_cases hceiling : custodian.maxRetries ≤ Count.next row.retries
      · rw [if_pos hceiling]
        exact ⟨rfl, if_pos (decide_eq_true hceiling),
          Row.counted_of_last hretries hceiling (decide_eq_true hceiling),
          Row.counted_of_lt hdeferrals⟩
      · rw [if_neg hceiling]
        exact ⟨rfl, if_neg (by simp [Row.apply, failureChange, hceiling]),
          (Row.counted_of_live (decide_eq_false hceiling)).trans (Count.next_toNat_of_lt hretries),
          Row.counted_of_lt hdeferrals⟩
  | malformed reason now hlook =>
      exact ⟨rfl, rfl, Row.counted_of_lt hretries, Row.counted_of_lt hdeferrals⟩
  | reclaim now hlook =>
      obtain ⟨_, hheld, _⟩ := hasExpired_iff.1 hlook
      rw [deed?_reclaim hlook]
      rcases custodian.reclaimChange_cases row now with ⟨hceiling, heq⟩ | ⟨hbelow, heq⟩
      · rw [heq, if_pos hceiling]
        exact ⟨rfl, if_pos (decide_eq_true hceiling),
          Row.counted_of_last hretries hceiling (decide_eq_true hceiling),
          Row.counted_of_lt hdeferrals⟩
      · rw [heq, if_neg (UInt32.not_le.2 hbelow)]
        exact ⟨if_neg (by simp [Row.apply, Change.of, hheld]),
          if_neg (by simp [Row.apply, Change.of, hlive]),
          (Row.counted_of_live hlive).trans (Count.next_toNat_of_lt hretries),
          Row.counted_of_lt hdeferrals⟩
  | postpone next hlook =>
      obtain ⟨_, hfree⟩ := mayDefer_iff.1 hlook
      have hwaiting : row.status ≠ .processed := by
        rintro hprocessed
        simp [hprocessed] at hfree
      rw [deed?_defer hlook]
      rcases custodian.deferChange_cases row next with ⟨hceiling, heq⟩ | ⟨hbelow, heq⟩
      · rw [heq, if_pos hceiling]
        exact ⟨if_neg hwaiting, rfl, Row.counted_of_lt hretries,
          Row.counted_of_last hdeferrals hceiling rfl⟩
      · rw [heq, if_neg (UInt32.not_le.2 hbelow)]
        exact ⟨if_neg hwaiting, if_neg (by simp [Row.apply, Change.of, hlive]),
          Row.counted_of_lt hretries,
          (Row.counted_of_live hlive).trans (Count.next_toNat_of_lt hdeferrals)⟩

/-- A sum over the rows of a store after one of them has changed. -/
theorem Store.sum_changeRow {rows : List Row} (h : DistinctNumbers rows) {row changed : Row}
    (hrow : row ∈ rows) (hid : changed.id = row.id) (part : Row → Nat) :
    ((changeRow rows changed).map part).sum + part row = (rows.map part).sum + part changed := by
  obtain ⟨before, after, rfl⟩ := List.append_of_mem hrow
  obtain ⟨_, hrest, hbefore⟩ := List.pairwise_append.1 h
  have hkept : ∀ others : List Row, (∀ other ∈ others, other.id ≠ row.id) →
      changeRow others changed = others := by
    intro others hothers
    calc
      changeRow others changed = others.map id := by
        refine List.map_congr_left fun other hother => if_neg ?_
        rw [hid]
        exact hothers other hother
      _ = others := List.map_id others
  have hsame : changeRow (before ++ row :: after) changed = before ++ changed :: after := by
    rw [changeRow, List.map_append, List.map_cons, if_pos hid.symm]
    congr 1
    · exact hkept before fun other hother => hbefore other hother row List.mem_cons_self
    · congr 1
      exact hkept after fun other hother => ((List.pairwise_cons.1 hrest).1 other hother).symm
  rw [hsame]
  simp only [List.map_append, List.map_cons, List.sum_append, List.sum_cons]
  omega

def Moment.deed? {τ : Type} (moment : Moment κ τ) : Option Deed :=
  moment.call.deed? moment.answer

/-- A change that shows no row is no deed. -/
theorem Moment.deed?_of_swap {τ : Type} {moment : Moment κ τ} {change : Change}
    (hcall : moment.call = .swap change) :
    moment.deed? = if moment.shown = [] then none else change.deed? := by
  obtain ⟨worker, call, answer, before, after⟩ := moment
  change call = _ at hcall
  subst hcall
  match answer with
  | .ok (some row) => rfl
  | .ok none => rfl
  | .error error => rfl

theorem Moment.deed?_of_aside {τ : Type} {moment : Moment κ τ} (hcall : moment.call.isSwap = false) :
    moment.deed? = none := by
  obtain ⟨worker, call, answer, before, after⟩ := moment
  change call.isSwap = false at hcall
  cases call with
  | swap change => cases hcall
  | _ => rfl

abbrev deedsIn {τ : Type} (history : List (Moment κ τ)) : List Deed :=
  history.filterMap Moment.deed?

structure Balanced (M : Count) (rows : List Row) (deeds : List Deed) : Prop where
  processed : (rows.map fun row => if row.status = .processed then 1 else 0).sum =
    deeds.count .processed
  dead : (rows.map fun row => if row.deadLettered then 1 else 0).sum = deeds.count .deadLettered
  retries : (rows.map fun row => row.counted M row.retries).sum =
    deeds.count .retried + deeds.count .reclaimed
  deferrals : (rows.map fun row => row.counted M row.deferrals).sum = deeds.count .deferred

namespace Balanced

variable {M : Count} {rows : List Row} {deeds done : List Deed} {row after : Row}

theorem change (h : Balanced M rows deeds) (hdistinct : DistinctNumbers rows) (hrow : row ∈ rows)
    (hopen : row.isTerminal = false) (hid : after.id = row.id) (hmarks : Marks M row after done) :
    Balanced M (Store.changeRow rows after) (done ++ deeds) := by
  obtain ⟨hunprocessed, hlive⟩ := Row.isTerminal_eq_false_iff.1 hopen
  have hsum := Store.sum_changeRow hdistinct hrow hid
  constructor
  · have hparts := hsum fun row => if row.status = .processed then 1 else 0
    simp only [hunprocessed, ↓reduceIte, hmarks.processed, h.processed] at hparts
    rw [List.count_append]
    omega
  · have hparts := hsum fun row => if row.deadLettered then 1 else 0
    simp only [hlive, Bool.false_eq_true, ↓reduceIte, hmarks.dead, h.dead] at hparts
    rw [List.count_append]
    omega
  · have hparts := hsum fun row => row.counted M row.retries
    simp only [Row.counted_of_live hlive, hmarks.retries, h.retries] at hparts
    rw [List.count_append, List.count_append]
    omega
  · have hparts := hsum fun row => row.counted M row.deferrals
    simp only [Row.counted_of_live hlive, hmarks.deferrals, h.deferrals] at hparts
    rw [List.count_append]
    omega

/-- Fresh rows show no deed. -/
theorem add (h : Balanced M rows deeds) {added more : List Row} (hmore : more.Perm (rows ++ added))
    (hfresh : ∀ row ∈ added, ∃ id draft now, row = Row.fresh id draft now) :
    Balanced M more deeds := by
  have hsum : ∀ part : Row → Nat, (∀ id draft now, part (Row.fresh id draft now) = 0) →
      (more.map part).sum = (rows.map part).sum := by
    intro part hpart
    have hnone : (added.map part).sum = 0 := by
      refine List.sum_eq_zero fun value hvalue => ?_
      obtain ⟨row, hrow, rfl⟩ := List.mem_map.1 hvalue
      obtain ⟨id, draft, now, rfl⟩ := hfresh row hrow
      exact hpart id draft now
    rw [(hmore.map part).sum_eq, List.map_append, List.sum_append, hnone, Nat.add_zero]
  constructor
  · exact (hsum _ fun _ _ _ => rfl).trans h.processed
  · exact (hsum _ fun _ _ _ => rfl).trans h.dead
  · exact (hsum _ fun _ _ _ => Row.counted_of_live rfl).trans h.retries
  · exact (hsum _ fun _ _ _ => Row.counted_of_live rfl).trans h.deferrals

end Balanced

def Job.isDone {τ ρ : Type} (job : Job κ τ ρ) : Bool :=
  match job.rest with
  | .done _ => true
  | .ask _ _ => false

def Job.report? {τ : Type} (job : Job κ τ (Except PublisherError TickReport)) : Option TickReport :=
  match job.rest with
  | .done (.ok report) => some report
  | _ => none

def World.reports {τ : Type} (world : World κ τ (Except PublisherError TickReport)) :
    List TickReport :=
  world.jobs.filterMap Job.report?

section tallies

variable {τ : Type}

abbrev deedsBy (number : Nat) (history : List (Moment κ τ)) : List Deed :=
  Deed.tally.phase [] number history

theorem count_deedsBy (deed : Deed) (number : Nat) (moment : Moment κ τ) (past : List (Moment κ τ)) :
    (deedsBy number (moment :: past)).count deed =
      (deedsBy number past).count deed +
        if moment.isBy number then moment.deed?.toList.count deed else 0 := by
  simp only [Protocol.phase]
  split
  · rw [Deed.tally, List.count_append, Nat.add_comm]
    rfl
  · rfl

/-- The deeds of all jobs together are those of the history. -/
theorem sum_deedsBy (deed : Deed) (jobs : Nat) {history : List (Moment κ τ)}
    (hdoer : ∀ moment ∈ history, moment.deed? ≠ none →
      ∃ worker, moment.worker = some worker ∧ worker.number < jobs) :
    ∑ number : Fin jobs, (deedsBy number.val history).count deed = (deedsIn history).count deed := by
  induction history with
  | nil => exact Finset.sum_eq_zero fun _ _ => rfl
  | cons moment past ih =>
      obtain ⟨hmoment, hpast⟩ := List.forall_mem_cons.1 hdoer
      simp only [count_deedsBy, Finset.sum_add_distrib, ih hpast, deedsIn]
      cases hdeed : moment.deed? with
      | none =>
          rw [List.filterMap_cons_none hdeed]
          simp
      | some done =>
          obtain ⟨worker, hworker, hlt⟩ := hmoment (by simp [hdeed])
          have hby : ∀ number : Fin jobs, moment.isBy number.val = true ↔ ⟨worker.number, hlt⟩ = number := by
            intro number
            simp [Moment.isBy, hworker, Fin.ext_iff]
          rw [List.filterMap_cons_some hdeed, ← List.singleton_append, List.count_append,
            Nat.add_comm]
          simp [hby]

/-- Where all ticks are over and each has reported its deeds, the reports count those of the
history. -/
theorem World.sum_reports {world : World κ τ (Except PublisherError TickReport)} (deed : Deed)
    (hdone : ∀ job ∈ world.jobs, job.isDone = true)
    (htells : world.Keeping (fun _ => Deed.tally) (fun _ outcome after =>
      match outcome with
      | .ok report => report.Tells after
      | .error _ => after = []) fun _ => [])
    (hdoer : ∀ moment ∈ world.history, moment.deed? ≠ none →
      ∃ worker, moment.worker = some worker ∧ worker.number < world.jobs.length) :
    (world.reports.map (·.count deed)).sum = (deedsIn world.history).count deed := by
  have hreport : ∀ number : Fin world.jobs.length,
      (world.jobs[number.val].report?.elim 0 (·.count deed)) =
        (deedsBy number.val world.history).count deed := by
    intro number
    have hjob := List.getElem?_eq_getElem number.isLt
    have hover := hdone _ (List.getElem_mem number.isLt)
    generalize world.jobs[number.val] = job at hjob hover ⊢
    obtain ⟨task, rest⟩ := job
    match rest with
    | .ask _ _ => cases hover
    | .done (.ok report) => exact htells.rest ⟨number.val, task⟩ _ hjob deed
    | .done (.error error) =>
        have hnone : deedsBy number.val world.history = [] := htells.rest ⟨number.val, task⟩ _ hjob
        rw [hnone]
        rfl
  have hsum : (world.reports.map (·.count deed)).sum =
      (world.jobs.map fun job => job.report?.elim 0 (·.count deed)).sum := by
    unfold World.reports
    induction world.jobs with
    | nil => rfl
    | cons job rest ih =>
        cases hjob : job.report? with
        | none => simp [List.filterMap_cons_none hjob, ih, hjob]
        | some report => simp [List.filterMap_cons_some hjob, ih, hjob]
  calc
    (world.reports.map (·.count deed)).sum =
        ∑ number : Fin world.jobs.length, world.jobs[number.val].report?.elim 0 (·.count deed) := by
      rw [hsum]
      exact (Fin.sum_univ_fun_getElem world.jobs _).symm
    _ = ∑ number : Fin world.jobs.length, (deedsBy number.val world.history).count deed :=
      Finset.sum_congr rfl fun number _ => hreport number
    _ = (deedsIn world.history).count deed := sum_deedsBy deed _ hdoer

end tallies

section sharing

variable {M : Count}

/-- Rows that publishers share have the form that the ceiling gives to them, and there is a ceiling if
there is a dead letter. -/
theorem sharing_bounded (actions : List (Action κ (Shift κ))) :
    ∀ row ∈ ((sharing κ M).world actions).store.rows,
      (0 < M → row.Bounded M) ∧ (row.deadLettered = true → 0 < M) := by
  refine (World.rows_hold rfl (fun _ row => (0 < M → row.Bounded M) ∧
    (row.deadLettered = true → 0 < M)) ?_ (fun _ _ _ h => h) ?_ actions).1
  · exact fun _ id draft now => ⟨fun hM => Row.Bounded.fresh hM id draft now, nofun⟩
  · intro earlier moment change row hmakes hcall hrow hfits ⟨hbounded, _⟩
    obtain ⟨worker, hworker, hturn⟩ := publishing_turn hmakes hcall hrow hfits
    obtain ⟨hM, hsettings⟩ := sharing_ceiling hmakes hworker
    have hmax : worker.task.publisher.custodian.maxRetries = M := hsettings
    have hafter := hturn.permits.bounded (hmax.symm ▸ hbounded hM)
    rw [hmax] at hafter
    exact ⟨fun _ => hafter, fun _ => hM⟩

/-- Publishers that share a ceiling, and a store that does nothing when it fails. -/
abbrev reporting (κ : Type) (M : Count) : Rules κ (Shift κ) (Except PublisherError TickReport) :=
  (sharing κ M).candid

variable {earlier : List (Action κ (Shift κ))} {moment : Moment κ (Shift κ)}

/-- A change that takes place is the deed of its moment, and leaves the marks of it. -/
theorem reporting_change
    (hmakes : (reporting κ M).Makes ((reporting κ M).world earlier) moment) {change : Change}
    (hcall : moment.call = .swap change) :
    (moment.after = moment.before ∧ moment.deed? = none) ∨
      ∃ row ∈ moment.before.rows, moment.after.rows =
          Store.changeRow moment.before.rows (row.apply change) ∧
        row.isTerminal = false ∧ moment.deed? = change.deed? ∧
        Marks M row (row.apply change) change.deed?.toList := by
  have hdeed := moment.deed?_of_swap hcall
  rcases hmakes.told hcall with ⟨hstore, hshown⟩ | ⟨row, hrow, hfits, hafter, hshown⟩
  · rw [hdeed, if_pos hshown]
    exact Or.inl ⟨hstore, rfl⟩
  · rw [hdeed, hshown, if_neg (List.cons_ne_nil _ _), hafter]
    obtain ⟨others, _, hwide⟩ := (sharing κ M).candid_within.makes hmakes
    have hthere := (Store.mem_of_get? hrow).1
    have hcommitted := hthere
    rw [hwide.before] at hcommitted
    obtain ⟨worker, hworker, hturn⟩ := publishing_turn hwide hcall hcommitted hfits
    obtain ⟨hM, hsettings⟩ := sharing_ceiling hwide hworker
    have hmax : worker.task.publisher.custodian.maxRetries = M := hsettings
    have hbounded := (sharing_bounded others row hcommitted).1 hM
    have hmarks := hturn.permits.marks (hmax.symm ▸ hbounded)
    rw [hmax] at hmarks
    exact Or.inr ⟨row, hthere, rfl, hturn.lawful.not_terminal, rfl, hmarks⟩

/-- What the rows show is what has been done. -/
theorem balanced (actions : List (Action κ (Shift κ))) :
    Balanced M ((reporting κ M).world actions).store.rows
      (deedsIn ((reporting κ M).world actions).history) := by
  refine Rules.call_induction rfl (fun store _ history => Balanced M store.rows (deedsIn history))
    ⟨rfl, rfl, rfl, rfl⟩ ?_ actions
  intro earlier moment h hmakes
  have hdistinct : DistinctNumbers moment.before.rows := by
    rw [hmakes.before]
    exact (World.sound _ earlier).committed_distinct
  rw [← hmakes.before] at h
  rw [deedsIn, List.filterMap_cons]
  cases hcall : moment.call.isSwap with
  | true =>
      obtain ⟨change, hchange⟩ : ∃ change, moment.call = .swap change := by
        generalize moment.call = call at hcall
        cases call with
        | swap change => exact ⟨change, rfl⟩
        | _ => cases hcall
      rcases reporting_change hmakes hchange with
        ⟨hstore, hdeed⟩ | ⟨row, hrow, hafter, hopen, hdeed, hmarks⟩
      · rw [hdeed, hstore]
        exact h
      · have hid : (row.apply change).id = row.id := rfl
        have hnext := h.change hdistinct hrow hopen hid hmarks
        rw [hafter, hdeed]
        cases hdone : change.deed? with
        | none =>
            rw [hdone] at hnext
            exact hnext
        | some deed =>
            rw [hdone] at hnext
            exact hnext
  | false =>
      obtain ⟨added, hmore, hfresh⟩ := World.added_aside rfl hmakes hcall
      rw [Moment.deed?_of_aside hcall]
      exact h.add hmore hfresh

theorem reporting_tells : (reporting κ M).FollowsTo (fun _ => Deed.tally) (fun _ outcome after =>
    match outcome with
    | .ok report => report.Tells after
    | .error _ => after = []) fun _ => [] :=
  fun shift => shift.publisher.tells_tick shift.now

/-- Every deed is done by a job. -/
theorem reporting_doer (actions : List (Action κ (Shift κ))) :
    ∀ moment ∈ ((reporting κ M).world actions).history, moment.deed? ≠ none →
      ∃ worker, moment.worker = some worker ∧
        worker.number < ((reporting κ M).world actions).jobs.length := by
  intro moment hmoment hdeed
  obtain ⟨later, past, hhistory⟩ := List.append_of_mem hmoment
  obtain ⟨earlier, _, hmakes⟩ := World.made_earlier rfl actions hhistory
  cases hworker : moment.worker with
  | none =>
      have haside : moment.call.isSwap = false := by
        have hothers := hmakes.bystander hworker
        simp only [publishing, Rules.candid, Bool.and_eq_true, Bool.not_eq_true'] at hothers
        exact hothers.1
      exact absurd (Moment.deed?_of_aside haside) hdeed
  | some worker =>
      obtain ⟨rest, hjob⟩ :=
        (World.keeping reporting_tells actions).worker moment hmoment worker hworker
      exact ⟨worker, rfl, (List.getElem?_eq_some_iff.1 hjob).1⟩

end sharing

/-- What ticks have reported and the rows that they leave come to the same. -/
structure Reconciled (M : Count) (rows : List Row) (reports : List TickReport) : Prop where
  processed : (reports.map (·.processed)).sum = rows.countP (·.status == .processed)
  dead : (reports.map (·.deadLettered)).sum = rows.countP (·.deadLettered)
  retries : (rows.map (·.retries.toNat)).sum =
    (reports.map (·.retried)).sum + (reports.map (·.reclaimed)).sum +
      rows.countP fun row => row.deadLettered && row.retries == M
  deferrals : (rows.map (·.deferrals.toNat)).sum =
    (reports.map (·.deferred)).sum + rows.countP fun row => row.deadLettered && row.deferrals == M

theorem sum_indicator (rows : List Row) (holds : Row → Prop) [DecidablePred holds] :
    (rows.map fun row => if holds row then 1 else 0).sum = rows.countP fun row => holds row := by
  induction rows with
  | nil => rfl
  | cons row rest ih =>
      rw [List.map_cons, List.sum_cons, ih, List.countP_cons, Nat.add_comm]
      simp

/-- The counters of rows, and the last steps that made dead letters of them. -/
theorem sum_counted {M : Count} {rows : List Row} (counter : Row → Count)
    (hceiling : ∀ row ∈ rows, row.deadLettered = true → 0 < M) :
    (rows.map fun row => (counter row).toNat).sum =
      (rows.map fun row => row.counted M (counter row)).sum +
        rows.countP fun row => row.deadLettered && counter row == M := by
  induction rows with
  | nil => rfl
  | cons row rest ih =>
      obtain ⟨hrow, hrest⟩ := List.forall_mem_cons.1 hceiling
      rw [List.map_cons, List.sum_cons, List.map_cons, List.sum_cons, List.countP_cons, ih hrest]
      by_cases hlast : row.deadLettered = true ∧ counter row = M
      · have hpositive := UInt32.lt_iff_toNat_lt.1 (hrow hlast.1)
        rw [Row.counted, if_pos hlast, if_pos (by simpa using hlast), hlast.2]
        change 0 < M.toNat at hpositive
        omega
      · rw [Row.counted, if_neg hlast, if_neg (by simpa using hlast)]
        omega

/-- In every interleaving of publishers that share a ceiling, whatever the bus and the handlers
answer, and however often the store fails without effect: once all ticks are over, their reports and
the rows come to the same. -/
theorem reports_reconcile (M : Count) (actions : List (Action κ (Shift κ)))
    (hdone : ∀ job ∈ ((reporting κ M).world actions).jobs, job.isDone = true) :
    Reconciled M ((reporting κ M).world actions).store.rows
      ((reporting κ M).world actions).reports := by
  have hbalanced : Balanced M ((reporting κ M).world actions).store.rows
      (deedsIn ((reporting κ M).world actions).history) := balanced actions
  have htold := fun deed => World.sum_reports deed hdone (World.keeping reporting_tells actions)
    (reporting_doer actions)
  have hceiling : ∀ row ∈ ((reporting κ M).world actions).store.rows,
      row.deadLettered = true → 0 < M := by
    obtain ⟨others, hothers⟩ := (sharing κ M).candid_within.world actions
    rw [hothers]
    exact fun row hrow => (sharing_bounded others row hrow).2
  constructor
  · exact (htold .processed).trans
      (hbalanced.processed.symm.trans (sum_indicator _ fun row => row.status = .processed))
  · have hsum := sum_indicator ((reporting κ M).world actions).store.rows (·.deadLettered = true)
    simp only [Bool.decide_eq_true] at hsum
    exact (htold .deadLettered).trans (hbalanced.dead.symm.trans hsum)
  · have hretried := htold .retried
    have hreclaimed := htold .reclaimed
    simp only [TickReport.count] at hretried hreclaimed
    rw [sum_counted (·.retries) hceiling, hbalanced.retries, hretried, hreclaimed]
  · have hdeferred := htold .deferred
    simp only [TickReport.count] at hdeferred
    rw [sum_counted (·.deferrals) hceiling, hbalanced.deferrals, hdeferred]

/-- The bus is away while one parcel waits for another, and each of them is tried twice. -/
def parcelsGivenUp : List (Action Unit (Shift Unit)) :=
  let away := Except.error (BusError.transportUnavailable "no route")
  ticking (epoch.after (Span.ofMillis 700)) 3 9 away ++
    ticking (epoch.after (Span.ofMillis 500)) 2 9 away ++
    ticking (epoch.after (Span.ofMillis 100)) 1 9 away ++
    posted 2 (parcel 2 (some (parcel 1 none).messageId)) ++
    ticking epoch 0 9 away ++ posted 1 (parcel 1 none)

/-- Both parcels are dead letters, one for its retries and one for its deferrals. -/
theorem parcels_reconciled :
    ((reporting Unit 2).world parcelsGivenUp).reports =
        [{ fetched := 1, claimed := 1, retried := 1 }, { fetched := 1, deferred := 1 },
          { fetched := 1, claimed := 1, deadLettered := 1 }, { fetched := 1, deadLettered := 1 }] ∧
      Reconciled 2 ((reporting Unit 2).world parcelsGivenUp).store.rows
        ((reporting Unit 2).world parcelsGivenUp).reports :=
  ⟨by decide +kernel, reports_reconcile 2 parcelsGivenUp (by decide +kernel)⟩

end Courier
