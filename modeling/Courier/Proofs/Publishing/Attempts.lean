import Courier.Proofs.Publishing.Claims
/-
Bounded attempts.  When all publishers share one ceiling, the claims of a row carry ever larger
retry counts below it, and a claim is handed over at most once, by the worker that has won it.  A
lost settlement yields no attempt for free: the claim that was not settled is counted before the
next one is made.
-/
namespace Courier

variable {κ τ : Type}

/-- The claims of a row, latest first, each as it stands right after it was made. -/
def claims (id : RowId) : List (Moment κ τ) → List Row
  | [] => []
  | moment :: past => (moment.claim? id).toList ++ claims id past

/-- The claims that were handed over to a bus or a handler, latest first. -/
def handOvers : List (Moment κ τ) → List Row
  | [] => []
  | moment :: past =>
      if moment.call.isHandOver then
        (moment.worker.bind fun worker => held worker.number past).toList ++ handOvers past
      else handOvers past

/-- Where a row stands next to the claims that were made of it so far. -/
def Row.Ahead (M : Count) (claims : List Row) (row : Row) : Prop :=
  match row.status with
  | .stored => claims = [] ∧ row.retries = 0
  | .processing => row.retries < M ∧ ∀ claimed ∈ claims, claimed.retries ≤ row.retries
  | .failed => row.deadLettered = false → ∀ claimed ∈ claims, claimed.retries < row.retries
  | .processed => True

/-- A claim is ahead of those before it, and any other turn leaves the row ahead of its claims. -/
theorem Shift.Outcome.ahead {shift : Shift κ} {phase : Phase} {row after : Row} {claims : List Row}
    (houtcome : shift.Outcome phase row after) (hpositive : 0 < shift.publisher.settings.maxRetries)
    (h : row.Ahead shift.publisher.settings.maxRetries claims) :
    (after.status = .processing → after.retries < shift.publisher.settings.maxRetries ∧
      ∀ claimed ∈ claims, claimed.retries < after.retries) ∧
    (after.status ≠ .processing → after.Ahead shift.publisher.settings.maxRetries claims) := by
  unfold Row.Ahead at h ⊢
  cases houtcome with
  | claimed hlive hfree hroom hdue hbatch hcause hstatus hretries hdeadline =>
      refine ⟨fun _ => ?_, fun hne => absurd hstatus hne⟩
      rw [hretries]
      rcases hfree with hfree | hfree
      · rw [hfree] at h
        obtain ⟨hnone, hzero⟩ := h
        rw [hnone, hzero]
        exact ⟨hpositive, by simp⟩
      · rw [hfree] at h
        exact ⟨hroom hfree, h hlive⟩
  | takenOver hheld hdue hstatus hretries hroom hdeadline =>
      refine ⟨fun _ => ⟨hroom, fun claimed hclaimed => ?_⟩, fun hne => absurd hstatus hne⟩
      rw [hheld] at h
      exact UInt32.lt_of_le_of_lt (h.2 claimed hclaimed) hretries
  | postponed hfree hdue hstatus hlive hretries hnext =>
      rw [hstatus, hretries]
      rcases hfree with hfree | hfree
      · rw [hfree] at h ⊢
        exact ⟨nofun, fun _ => h⟩
      · rw [hfree] at h ⊢
        exact ⟨nofun, fun _ _ => h hlive⟩
  | succeeded hheld hhold hstatus =>
      rw [hstatus]
      exact ⟨nofun, fun _ => trivial⟩
  | failed hheld hhold hstatus hlive hretries hnext =>
      rw [hheld] at h
      rw [hstatus]
      refine ⟨nofun, fun _ _ claimed hclaimed => ?_⟩
      exact UInt32.lt_of_le_of_lt (h.2 claimed hclaimed) hretries
  | ended hheld hstatus hdead =>
      rw [hstatus, hdead]
      exact ⟨nofun, fun _ => nofun⟩

/-- The claims of one row so far, under one ceiling. -/
structure Counted (M : Count) (id : RowId) (store : Store) (history : List (Moment κ τ)) : Prop where
  rising : (claims id history).Pairwise fun later earlier => earlier.retries < later.retries
  below : ∀ claimed ∈ claims id history, claimed.retries < M
  absent : store.get? id = none → claims id history = []
  ahead : ∀ row, store.get? id = some row → row.Ahead M (claims id history)

section counting

variable {M : Count}

abbrev sharing (κ : Type) (M : Count) : Rules κ (Shift κ) (Except PublisherError TickReport) :=
  publishing κ fun settings => settings.maxRetries == M

/-- Whoever calls has the ceiling that is shared. -/
theorem sharing_ceiling {earlier : List (Action κ (Shift κ))} {moment : Moment κ (Shift κ)}
    (hmakes : (sharing κ M).Makes ((sharing κ M).world earlier) moment) {worker : Worker (Shift κ)}
    (hworker : moment.worker = some worker) :
    0 < M ∧ worker.task.publisher.settings.maxRetries = M := by
  obtain ⟨husable, hshared⟩ := publishing_eligible hmakes hworker
  have hmax : worker.task.publisher.settings.maxRetries = M := by simpa using hshared
  exact ⟨hmax ▸ (PublisherSettings.usable husable).1, hmax⟩

theorem Counted.step {earlier : List (Action κ (Shift κ))} {moment : Moment κ (Shift κ)} {id : RowId}
    (h : Counted M id ((sharing κ M).world earlier).store ((sharing κ M).world earlier).history)
    (hmakes : (sharing κ M).Makes ((sharing κ M).world earlier) moment) :
    Counted M id moment.after (moment :: ((sharing κ M).world earlier).history) := by
  have hquiet : moment.claim? id = none →
      (moment.after.get? id = none → claims id ((sharing κ M).world earlier).history = []) →
      (∀ row, moment.after.get? id = some row →
        row.Ahead M (claims id ((sharing κ M).world earlier).history)) →
      Counted M id moment.after (moment :: ((sharing κ M).world earlier).history) := by
    intro hnone habsent hahead
    have hclaims : claims id (moment :: ((sharing κ M).world earlier).history) =
        claims id ((sharing κ M).world earlier).history := by
      simp only [claims, hnone, Option.toList_none, List.nil_append]
    constructor <;> rw [hclaims]
    · exact h.rising
    · exact h.below
    · exact habsent
    · exact hahead
  cases publishing_fate hmakes id with
  | absent hbefore hafter hclaim =>
      refine hquiet hclaim (fun _ => h.absent hbefore) ?_
      simp [hafter]
  | committed draft now hbefore hafter hclaim =>
      refine hquiet hclaim (fun _ => h.absent hbefore) ?_
      rw [hafter]
      rintro row ⟨⟩
      exact ⟨h.absent hbefore, rfl⟩
  | kept row hbefore hafter hclaim =>
      refine hquiet hclaim (by simp [hafter]) ?_
      rw [hafter]
      rintro row ⟨⟩
      exact h.ahead row hbefore
  | turned row after worker hbefore hafter _ _ hworker houtcome hclaim =>
      obtain ⟨hpositive, hmax⟩ := sharing_ceiling hmakes hworker
      rw [← hmax] at hpositive
      obtain ⟨hclaimed, hother⟩ := houtcome.ahead hpositive (hmax ▸ h.ahead row hbefore)
      rw [hmax] at hclaimed hother
      by_cases hstatus : after.status = .processing
      · obtain ⟨hbelow, habove⟩ := hclaimed hstatus
        rw [if_pos hstatus] at hclaim
        have hclaims : claims id (moment :: ((sharing κ M).world earlier).history) =
            after :: claims id ((sharing κ M).world earlier).history := by
          simp only [claims, hclaim, Option.toList_some, List.singleton_append]
        constructor <;> rw [hclaims]
        · exact List.pairwise_cons.2 ⟨habove, h.rising⟩
        · exact List.forall_mem_cons.2 ⟨hbelow, h.below⟩
        · simp [hafter]
        · rw [hafter]
          rintro row ⟨⟩
          unfold Row.Ahead
          rw [hstatus]
          refine ⟨hbelow, List.forall_mem_cons.2 ⟨UInt32.le_refl _, fun claimed hmem => ?_⟩⟩
          exact UInt32.le_of_lt (habove claimed hmem)
      · rw [if_neg hstatus] at hclaim
        refine hquiet hclaim (by simp [hafter]) ?_
        rw [hafter]
        rintro row ⟨⟩
        exact hother hstatus

theorem sharing_counted (id : RowId) (actions : List (Action κ (Shift κ))) :
    Counted M id ((sharing κ M).world actions).store ((sharing κ M).world actions).history := by
  refine Rules.call_induction rfl (fun store _ history => Counted M id store history) ?_ ?_ actions
  · constructor
    · exact List.Pairwise.nil
    · intro claimed hclaimed
      cases hclaimed
    · intro _
      rfl
    · intro row hrow
      cases hrow
  · intro earlier moment h hmakes
    exact h.step hmakes

end counting

theorem mem_claims {id : RowId} {history : List (Moment κ τ)} {moment : Moment κ τ} {row : Row}
    (hmoment : moment ∈ history) (hclaim : moment.claim? id = some row) : row ∈ claims id history := by
  induction history with
  | nil => cases hmoment
  | cons latest past ih =>
      rcases List.mem_cons.1 hmoment with rfl | hpast
      · refine List.mem_append_left _ ?_
        rw [hclaim]
        exact List.mem_singleton_self row
      · exact List.mem_append_right _ (ih hpast)

theorem handOvers_shown {history : List (Moment κ τ)} {row : Row} (h : row ∈ handOvers history) :
    row ∈ history.flatMap Moment.shown := by
  induction history with
  | nil => cases h
  | cons moment past ih =>
      rw [List.flatMap_cons]
      refine List.mem_append_right _ ?_
      simp only [handOvers] at h
      split at h
      · rcases List.mem_append.1 h with hnow | hold
        · obtain ⟨worker, _, hheld⟩ := Option.bind_eq_some_iff.1 (Option.mem_toList.1 hnow)
          exact held_shown hheld
        · exact ih hold
      · exact ih h

/-- A worker about to hand a claim over has just won it, or was about to do so before. -/
theorem Phase.claimed_next (phase : Phase) (call : Call κ) (answer : call.Answer) {row : Row}
    (h : (phase.next call answer).hold = .claimed row) :
    call.isSwap = true ∧ row ∈ call.shown answer ∨
      call.isHandOver = false ∧ phase.hold = .claimed row := by
  have hover : ∀ delivered, phase.hold.handOver delivered ≠ .claimed row := by
    intro delivered
    cases phase.hold <;> nofun
  cases call with
  | swap change =>
      have hrow := congrArg Hold.row? h
      have hswap : (Call.swap change : Call κ).isSwap = true := rfl
      rw [phase.row?_next (.swap change) answer, if_pos hswap] at hrow
      exact Or.inl ⟨hswap, List.mem_of_find?_eq_some hrow⟩
  | publish key envelope => exact absurd h (hover _)
  | handle command => exact absurd h (hover _)
  | due query =>
      cases answer with
      | error error => exact Or.inr ⟨rfl, h⟩
      | ok rows => exact Or.inr ⟨rfl, h⟩
  | outgoing id =>
      cases answer with
      | error error => exact Or.inr ⟨rfl, h⟩
      | ok statuses => exact Or.inr ⟨rfl, h⟩
  | _ => exact Or.inr ⟨rfl, h⟩

structure HandedOnce (history : List (Moment κ τ)) : Prop where
  fresh : ∀ number row, (phaseOf number history).hold = .claimed row → row ∉ handOvers history
  nodup : (handOvers history).Nodup
  won : ∀ row ∈ handOvers history, row ∈ claims row.id history

section handing

variable {eligible : PublisherSettings → Bool}

theorem HandedOnce.step {earlier : List (Action κ (Shift κ))} {moment : Moment κ (Shift κ)}
    (h : HandedOnce ((publishing κ eligible).world earlier).history)
    (hmakes : (publishing κ eligible).Makes ((publishing κ eligible).world earlier) moment) :
    HandedOnce (moment :: ((publishing κ eligible).world earlier).history) := by
  have hholders : Holders ((publishing κ eligible).world earlier).history :=
    publishing_holders earlier
  by_cases hover : moment.call.isHandOver = true
  · obtain ⟨worker, claimed, hworker, hhold, _⟩ := publishing_hands_over hmakes hover
    have hheld := held_of_hold hhold
    have hmore : handOvers (moment :: ((publishing κ eligible).world earlier).history) =
        claimed :: handOvers ((publishing κ eligible).world earlier).history := by
      simp [handOvers, hover, hworker, hheld]
    constructor
    · intro number row hready
      rw [hmore]
      simp only [phaseOf] at hready
      split at hready
      · rcases Phase.claimed_next _ _ _ hready with ⟨hswap, _⟩ | ⟨hnone, _⟩
        · rw [Call.isSwap_of_isHandOver hover] at hswap
          cases hswap
        · rw [hover] at hnone
          cases hnone
      · rename_i hother
        have hrow := held_of_hold hready
        rw [List.mem_cons]
        rintro (rfl | hmem)
        · refine hother (Moment.isBy_iff.2 ⟨worker, hworker, ?_⟩)
          exact hholders.alone _ _ row hheld hrow
        · exact h.fresh number row hready hmem
    · rw [hmore]
      exact List.nodup_cons.2 ⟨h.fresh worker.number claimed hhold, h.nodup⟩
    · intro row hrow
      rw [hmore] at hrow
      refine List.mem_append_right _ ?_
      rcases List.mem_cons.1 hrow with rfl | hold
      · obtain ⟨winning, hmem, _, _, _, hclaim, _⟩ := hholders.won worker.number row hheld
        exact mem_claims hmem hclaim
      · exact h.won row hold
  · have hsame : handOvers (moment :: ((publishing κ eligible).world earlier).history) =
        handOvers ((publishing κ eligible).world earlier).history := if_neg hover
    constructor
    · intro number row hready
      rw [hsame]
      simp only [phaseOf] at hready
      split at hready
      · rcases Phase.claimed_next _ _ _ hready with ⟨hswap, hshown⟩ | ⟨_, hready⟩
        · intro hmem
          exact (World.get?_of_shown hmakes hswap hshown).2.2 (handOvers_shown hmem)
        · exact h.fresh number row hready
      · exact h.fresh number row hready
    · rw [hsame]
      exact h.nodup
    · intro row hrow
      rw [hsame] at hrow
      exact List.mem_append_right _ (h.won row hrow)

theorem publishing_handedOnce (actions : List (Action κ (Shift κ))) :
    HandedOnce ((publishing κ eligible).world actions).history := by
  refine Rules.call_induction rfl (fun _ _ history => HandedOnce history) ?_ ?_ actions
  · constructor
    · intro number row hready
      cases hready
    · exact List.nodup_nil
    · intro row hrow
      cases hrow
  · intro earlier moment h hmakes
    exact h.step hmakes

end handing

/-- Ever larger counts below a ceiling leave room for so many only. -/
theorem length_le_of_rising {M : Count} {rows : List Row}
    (hrising : rows.Pairwise fun later earlier => earlier.retries < later.retries)
    (hbelow : ∀ row ∈ rows, row.retries < M) : rows.length ≤ M.toNat := by
  induction rows generalizing M with
  | nil => exact Nat.zero_le _
  | cons latest rest ih =>
      obtain ⟨hlatest, hrest⟩ := List.pairwise_cons.1 hrising
      have hlength := ih hrest hlatest
      have hlt := UInt32.lt_iff_toNat_lt.1 (hbelow latest (List.mem_cons_self ..))
      rw [List.length_cons]
      omega

/-- In every interleaving of publishers that share a ceiling, whatever fails, the claims of a row
carry ever larger retry counts below it.  Whoever hands a row over holds a claim of it, no claim is
handed over twice, and so a row is handed over at most as often as the ceiling says. -/
theorem attempts_bounded (M : Count) (actions : List (Action κ (Shift κ))) (id : RowId) :
    let history := ((sharing κ M).world actions).history
    (claims id history).Pairwise (fun later earlier => earlier.retries < later.retries) ∧
    (∀ claimed ∈ claims id history, claimed.retries < M) ∧
    (∀ later moment past, history = later ++ moment :: past → moment.call.isHandOver = true →
      ∃ worker claimed, moment.worker = some worker ∧ held worker.number past = some claimed ∧
        worker.task.HandsOver claimed moment.call) ∧
    (handOvers history).Nodup ∧
    (∀ row ∈ handOvers history, row ∈ claims row.id history) ∧
    ((handOvers history).filter (·.id == id)).length ≤ M.toNat := by
  intro history
  have hcounted : Counted M id ((sharing κ M).world actions).store history :=
    sharing_counted id actions
  have honce : HandedOnce history := publishing_handedOnce actions
  refine ⟨hcounted.rising, hcounted.below, ?_, honce.nodup, honce.won, ?_⟩
  · intro later moment past hhistory hover
    obtain ⟨earlier, rfl, hmakes⟩ := World.made_earlier rfl actions hhistory
    obtain ⟨worker, claimed, hworker, hhold, hhands⟩ := publishing_hands_over hmakes hover
    exact ⟨worker, claimed, hworker, held_of_hold hhold, hhands⟩
  · have hsubset : (handOvers history).filter (·.id == id) ⊆ claims id history := by
      intro row hrow
      obtain ⟨hmem, hid⟩ := List.mem_filter.1 hrow
      have hwon := honce.won row hmem
      rw [eq_of_beq hid] at hwon
      exact hwon
    have hfew := List.Nodup.length_le_of_subset (honce.nodup.filter _) hsubset
    exact Nat.le_trans hfew (length_le_of_rising hcounted.rising hcounted.below)

/-- A parcel is not taken over by the bus, and a second later it is tried again. -/
def parcelRetried : List (Action Unit (Shift Unit)) :=
  ticking (epoch.after (Span.ofSeconds 1)) 1 3 (.ok ()) ++
    ticking epoch 0 5 (.error (.transportUnavailable "no route")) ++ posted 1 (parcel 1 none)

/-- The ceiling is reached. -/
theorem parcel_tried_twice :
    ((handOvers ((sharing Unit 2).world parcelRetried).history).filter (·.id == ⟨1⟩)).length = 2 ∧
      ((handOvers ((sharing Unit 2).world parcelRetried).history).filter (·.id == ⟨1⟩)).length ≤
        (2 : Count).toNat := by
  obtain ⟨_, _, _, _, _, hbound⟩ := attempts_bounded 2 parcelRetried ⟨1⟩
  exact ⟨by decide +kernel, hbound⟩

end Courier
