import Courier.Proofs.Custody.Clients
/-
Rows under one ceiling.  As long as all clients share a ceiling, no counter of a row exceeds it, a
row that has reached it is a dead letter, and what a row tells of its past fits its status.  So
whatever raises a counter finds room for one more.
-/
namespace Courier

variable {κ : Type}

/-- The form that a ceiling gives to a row. -/
structure Row.Bounded (M : Count) (row : Row) : Prop where
  retries_le : row.retries ≤ M
  deferrals_le : row.deferrals ≤ M
  live : row.deadLettered = false → row.retries < M ∧ row.deferrals < M
  untried : row.status = .stored → row.retries = 0 ∧ row.lastProcessedAt = none
  tried : row.status = .failed ∨ row.status = .processed → row.lastProcessedAt.isSome = true
  dead : row.deadLettered = true → row.status = .stored ∨ row.status = .failed
  waited : row.deadLettered = true → row.status = .stored → row.deferrals = M
  held : row.status = .processing ∨ row.status = .processed → row.deadLettered = false

namespace Count

variable {n M : Count}

theorem next_toNat_of_lt (h : n < M) : (Count.next n).toNat = n.toNat + 1 :=
  next_of_lt (UInt32.lt_of_lt_of_le h (le_greatest M))

theorem next_le_of_lt (h : n < M) : Count.next n ≤ M := by
  have hlt := UInt32.lt_iff_toNat_lt.1 h
  rw [UInt32.le_iff_toNat_le, next_toNat_of_lt h]
  omega

/-- One more than a count below the ceiling is below it too, or it is the ceiling. -/
theorem next_eq_of_le (h : n < M) (hle : M ≤ Count.next n) : Count.next n = M :=
  UInt32.le_antisymm (next_le_of_lt h) hle

end Count

namespace Row.Bounded

variable {M : Count} {row : Row}

/-- A live row has only to stay below the ceiling. -/
theorem of_live (hlive : row.deadLettered = false) (hretries : row.retries < M)
    (hdeferrals : row.deferrals < M)
    (huntried : row.status = .stored → row.retries = 0 ∧ row.lastProcessedAt = none)
    (htried : row.status = .failed ∨ row.status = .processed → row.lastProcessedAt.isSome = true) :
    row.Bounded M where
  retries_le := UInt32.le_of_lt hretries
  deferrals_le := UInt32.le_of_lt hdeferrals
  live _ := ⟨hretries, hdeferrals⟩
  untried := huntried
  tried := htried
  dead hdead := absurd (hlive.symm.trans hdead) Bool.false_ne_true
  waited hdead := absurd (hlive.symm.trans hdead) Bool.false_ne_true
  held _ := hlive

/-- A failed row may be a dead letter at any count. -/
theorem of_failed (hstatus : row.status = .failed) (hretries : row.retries ≤ M)
    (hdeferrals : row.deferrals < M) (htried : row.lastProcessedAt.isSome = true)
    (hlive : row.deadLettered = false → row.retries < M) : row.Bounded M where
  retries_le := hretries
  deferrals_le := UInt32.le_of_lt hdeferrals
  live h := ⟨hlive h, hdeferrals⟩
  untried := by simp [hstatus]
  tried _ := htried
  dead _ := Or.inr hstatus
  waited := by simp [hstatus]
  held := by simp [hstatus]

theorem fresh (hM : 0 < M) (id : RowId) (draft : Draft) (now : Instant) :
    (Row.fresh id draft now).Bounded M :=
  of_live rfl hM hM (fun _ => ⟨rfl, rfl⟩) (by simp [Row.fresh])

variable {custodian : Custodian} (h : row.Bounded M) (hlive : row.deadLettered = false)

include h hlive

theorem failure (hmax : custodian.maxRetries = M) (reason : Option String) (now next : Instant) :
    (row.apply { custodian.failureChange row reason now with nextAttemptAt := next }).Bounded M := by
  obtain ⟨hretries, hdeferrals⟩ := h.live hlive
  refine of_failed rfl (Count.next_le_of_lt hretries) hdeferrals rfl fun hdead => ?_
  have hbelow : ¬ custodian.maxRetries ≤ Count.next row.retries := of_decide_eq_false hdead
  rw [hmax] at hbelow
  exact UInt32.not_le.1 hbelow

theorem reclaim (hmax : custodian.maxRetries = M) {now : Instant}
    (hlook : Custodian.hasExpired row now = true) :
    (row.apply (custodian.reclaimChange row now)).Bounded M := by
  obtain ⟨_, hdeferrals⟩ := h.live hlive
  obtain ⟨_, hstatus, _⟩ := Custodian.hasExpired_iff.1 hlook
  rcases custodian.reclaimChange_cases row now with ⟨_, heq⟩ | ⟨hlt, heq⟩
  · rw [heq]
    exact h.failure hlive hmax _ now row.nextAttemptAt
  · rw [heq]
    refine of_live hlive (hmax ▸ hlt) hdeferrals (fun hstored => ?_) h.tried
    exact absurd (hstatus.symm.trans hstored) (by decide)

theorem postpone (hmax : custodian.maxRetries = M) {next : Instant}
    (hlook : Custodian.mayDefer row = true) :
    (row.apply (custodian.deferChange row next)).Bounded M := by
  obtain ⟨hretries, hdeferrals⟩ := h.live hlive
  obtain ⟨_, hstatus⟩ := Custodian.mayDefer_iff.1 hlook
  rcases custodian.deferChange_cases row next with ⟨hceiling, heq⟩ | ⟨hlt, heq⟩
  · rw [heq]
    constructor
    · exact h.retries_le
    · exact Count.next_le_of_lt hdeferrals
    · nofun
    · exact h.untried
    · exact h.tried
    · exact fun _ => hstatus
    · exact fun _ _ => Count.next_eq_of_le hdeferrals (hmax ▸ hceiling)
    · rintro (hheld | hheld)
      · simp [show row.status = .processing from hheld] at hstatus
      · simp [show row.status = .processed from hheld] at hstatus
  · rw [heq]
    exact of_live hlive hretries (hmax ▸ hlt) h.untried h.tried

end Row.Bounded

/-- Whatever a custodian permits keeps a row in the form that the custodian's ceiling gives to it. -/
theorem Custodian.Permits.bounded {custodian : Custodian} {row : Row} {change : Change}
    (hpermits : custodian.Permits row change) (h : row.Bounded custodian.maxRetries) :
    (row.apply change).Bounded custodian.maxRetries := by
  have hlive : row.deadLettered = false := hpermits.lawful.live
  obtain ⟨hretries, hdeferrals⟩ := h.live hlive
  cases hpermits with
  | claim now hlook =>
      exact .of_live hlive hretries hdeferrals nofun (by simp [Row.apply, claimChange])
  | processed now hlook => exact .of_live hlive hretries hdeferrals nofun fun _ => rfl
  | failure reason now next hlook => exact h.failure hlive rfl reason now next
  | malformed reason now hlook =>
      exact .of_failed rfl h.retries_le hdeferrals rfl fun _ => hretries
  | reclaim now hlook => exact h.reclaim hlive rfl hlook
  | postpone next hlook => exact h.postpone hlive rfl hlook

def clientsSharing (κ : Type) (M : Count) :
    Rules κ Errand (Except MessagingError (Option Row)) :=
  { clients κ with
    admits := fun handed errand =>
      (clients κ).admits handed errand && errand.custodian.maxRetries == M }

/-- Every change is one that a custodian with the ceiling permits after a look at a row that was
handed out. -/
theorem clientsSharing_permits {M : Count} {earlier : List (Action κ Errand)}
    {moment : Moment κ Errand} {change : Change}
    (hmakes : (clientsSharing κ M).Makes ((clientsSharing κ M).world earlier) moment)
    (hcall : moment.call = .swap change) :
    ∃ custodian : Custodian, custodian.maxRetries = M ∧
      ∃ seen ∈ ((clientsSharing κ M).world earlier).handedOut, custodian.Permits seen change := by
  have hknown : ∀ handed errand, (clientsSharing κ M).admits handed errand = true →
      errand.operation.row?.all (handed.contains ·) = true ∧ errand.custodian.maxRetries = M := by
    intro handed errand hadmits
    simpa [clientsSharing, clients] using hadmits
  have hfollows : (clientsSharing κ M).Follows (fun errand => custody κ errand.custodian)
      fun errand => errand.operation.row?.toList :=
    fun errand => errand.operation.keeps errand.custodian
  obtain ⟨worker, hworker, seen, hseen, hpermits⟩ := Rules.change_of_follows _ _ hfollows id
    (fun errand => errand.custodian.Permits) (fun errand known change hallows => hallows change rfl)
    (fun errand known call answer row hrow => List.mem_append.1 hrow)
    (fun handed errand hadmits row hrow => by
      simpa [Option.mem_toList.1 hrow] using (hknown handed errand hadmits).1)
    (fun change => rfl) hmakes hcall
  obtain ⟨next, hjob⟩ := hmakes.worker worker hworker
  have hmax := Rules.admitted (fun _ (errand : Errand) => errand.custodian.maxRetries = M)
    (fun handed errand hadmits => (hknown handed errand hadmits).2) (fun _ _ _ h => h) earlier
    (List.mem_of_getElem? hjob)
  exact ⟨worker.task.custodian, hmax, seen, hseen, hpermits⟩

theorem clientsSharing_bounded {M : Count} (hM : 0 < M) (actions : List (Action κ Errand)) :
    (∀ row ∈ ((clientsSharing κ M).world actions).store.rows, row.Bounded M) ∧
      ∀ seen ∈ ((clientsSharing κ M).world actions).handedOut, seen.Bounded M := by
  refine World.rows_hold rfl (fun _ row => row.Bounded M) (fun _ => Row.Bounded.fresh hM)
    (fun _ _ _ h => h) ?_ actions
  intro earlier moment change row hmakes hcall hrow hfits hbounded
  obtain ⟨custodian, hmax, seen, hseen, hpermits⟩ := clientsSharing_permits hmakes hcall
  have hsame := (World.sound _ earlier).eq_of_fits hpermits.lawful hseen hrow hfits
  subst hsame hmax
  exact hpermits.bounded hbounded

/-- In every interleaving of clients that share a ceiling, all committed rows have the form that the
ceiling gives to them.  Whoever asks for a change has looked at a live row, whose counters both have
room for one more. -/
theorem clients_keep_ceiling {M : Count} (hM : 0 < M) (actions : List (Action κ Errand)) :
    (∀ row ∈ ((clientsSharing κ M).world actions).store.rows, row.Bounded M) ∧
    ∀ moment ∈ ((clientsSharing κ M).world actions).history, ∀ change,
      moment.call = .swap change →
      ∃ custodian : Custodian, custodian.maxRetries = M ∧
        ∃ seen ∈ ((clientsSharing κ M).world actions).handedOut,
          custodian.Permits seen change ∧ seen.deadLettered = false ∧
          (Count.next seen.retries).toNat = seen.retries.toNat + 1 ∧
          (Count.next seen.deferrals).toNat = seen.deferrals.toNat + 1 := by
  refine ⟨(clientsSharing_bounded hM actions).1, fun moment hmoment change hcall => ?_⟩
  obtain ⟨later, past, hhistory⟩ := List.append_of_mem hmoment
  obtain ⟨earlier, hpast, hmakes⟩ := World.made_earlier rfl actions hhistory
  obtain ⟨custodian, hmax, seen, hseen, hpermits⟩ := clientsSharing_permits hmakes hcall
  have hlive : seen.deadLettered = false := hpermits.lawful.live
  obtain ⟨hretries, hdeferrals⟩ := ((clientsSharing_bounded hM earlier).2 seen hseen).live hlive
  refine ⟨custodian, hmax, seen, ?_, hpermits, hlive, Count.next_toNat_of_lt hretries,
    Count.next_toNat_of_lt hdeferrals⟩
  unfold World.handedOut at hseen ⊢
  rw [hhistory, List.flatMap_append, List.flatMap_cons, ← hpast]
  exact List.mem_append_right _ (List.mem_append_right _ hseen)

def noteFailed : List (Action Unit Errand) :=
  [.work 1 { clock := epoch },
    .work 1 { clock := epoch },
    .start ⟨Custodian.standard, .recordFailure
      ((Row.fresh ⟨1⟩ note epoch).apply
        (Custodian.standard.claimChange (Row.fresh ⟨1⟩ note epoch) epoch)) "no route" epoch⟩,
    .work 0 { clock := epoch }] ++ notePosted

theorem note_within_ceiling :
    (0 : Count) < 5 ∧
      (((clientsSharing Unit 5).world noteFailed).store.rows.map
        fun row => (row.status, row.retries, row.deadLettered)) = [(.failed, 1, false)] ∧
      (∀ row ∈ ((clientsSharing Unit 5).world noteFailed).store.rows, row.Bounded 5) ∧
      ∀ moment ∈ ((clientsSharing Unit 5).world noteFailed).history, ∀ change,
        moment.call = .swap change →
        ∃ custodian : Custodian, custodian.maxRetries = 5 ∧
          ∃ seen ∈ ((clientsSharing Unit 5).world noteFailed).handedOut,
            custodian.Permits seen change ∧ seen.deadLettered = false ∧
            (Count.next seen.retries).toNat = seen.retries.toNat + 1 ∧
            (Count.next seen.deferrals).toNat = seen.deferrals.toNat + 1 :=
  ⟨by decide, by decide, clients_keep_ceiling (by decide) noteFailed⟩

end Courier
