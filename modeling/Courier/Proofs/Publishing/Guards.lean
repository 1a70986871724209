import Courier.Proofs.Publishing.Ticks
/-
Guards.  The query for due rows and the guards of the custodian are written apart from each other, but
they agree: no guard stands in the way of a due row, nor of a claim that was won.
-/
namespace Courier

variable {κ α : Type}

namespace Custodian

/-- Whoever holds a claim may settle it in each of the three ways: no guard stops him before he changes
the row. -/
structure Honours (κ : Type) (custodian : Custodian) (claimed : Row) : Prop where
  processed : (custodian.markProcessed claimed : Attempt κ MessagingError Row) =
    ((liftM (Program.now κ) : Attempt κ MessagingError Instant) >>= fun clock =>
      apply (processedChange claimed clock))
  failure : ∀ reason next,
    (custodian.recordFailure claimed reason next : Attempt κ MessagingError Row) =
      ((liftM (Program.now κ) : Attempt κ MessagingError Instant) >>= fun clock =>
        apply { custodian.failureChange claimed (some reason) clock with nextAttemptAt := next })
  malformed : ∀ reason,
    (custodian.markMalformed claimed reason : Attempt κ MessagingError Row) =
      ((liftM (Program.now κ) : Attempt κ MessagingError Instant) >>= fun clock =>
        apply (malformedChange claimed reason clock))

/-- A row may be handled as of an instant: no guard stops a tick before it changes the row, and whoever
wins it thereby may settle it. -/
structure Admits (κ : Type) (custodian : Custodian) (row : Row) (now : Instant) : Prop where
  reclaim : row.status = .processing →
    (custodian.reclaim row now : Attempt κ MessagingError (Option Row)) =
      swap (custodian.reclaimChange row now)
  claim : row.status ≠ .processing →
    (custodian.claimAt row now : Attempt κ MessagingError (Option Row)) =
      swap (custodian.claimChange row now)
  defer : row.status ≠ .processing → ∀ next,
    (custodian.defer row next : Attempt κ MessagingError (Option Row)) =
      swap (custodian.deferChange row next)
  reclaimed : row.status = .processing → ∀ old : Row,
    (custodian.reclaimChange row now).fits old = true →
    (old.apply (custodian.reclaimChange row now)).deadLettered = false →
      custodian.Honours κ (old.apply (custodian.reclaimChange row now))
  claimed : row.status ≠ .processing → ∀ old : Row,
    (custodian.claimChange row now).fits old = true →
      custodian.Honours κ (old.apply (custodian.claimChange row now))

theorem check_of_refusal {custodian : Custodian} {row : Row} {next : Status}
    (h : row.refusal? next custodian.maxRetries = none) : custodian.check row next = .ok () := by
  unfold check
  rw [h]

/-- What follows a check that passes goes on at once. -/
theorem ofExcept_checked {custodian : Custodian} {row : Row} {next : Status}
    {rest : Unit → Attempt κ MessagingError α} (h : row.refusal? next custodian.maxRetries = none) :
    (Attempt.ofExcept (custodian.check row next) >>= rest : Attempt κ MessagingError α) =
      rest () := by
  rw [check_of_refusal h]
  rfl

theorem honours_of_claimed (custodian : Custodian) {claimed : Row} (h : claimed.Claimed) :
    custodian.Honours κ claimed where
  processed := ofExcept_checked (h.refusal?_eq_none (Or.inl rfl) _)
  failure _ _ := ofExcept_checked (h.refusal?_eq_none (Or.inr rfl) _)
  malformed _ := ofExcept_checked (h.refusal?_eq_none (Or.inr rfl) _)

/-- A claim that was taken over, and not given up at the ceiling, is a claim. -/
theorem claimed_of_reclaim {custodian : Custodian} {row : Row} {now : Instant}
    (hheld : row.status = .processing) (old : Row)
    (hlive : (old.apply (custodian.reclaimChange row now)).deadLettered = false) :
    (old.apply (custodian.reclaimChange row now)).Claimed := by
  refine ⟨?_, hlive⟩
  rcases custodian.reclaimChange_cases row now with ⟨hle, heq⟩ | ⟨_, heq⟩
  · have hdead : (old.apply (custodian.reclaimChange row now)).deadLettered = true := by
      rw [heq]
      exact decide_eq_true hle
    exact absurd (hdead.symm.trans hlive) (by decide)
  · rw [heq]
    exact hheld

end Custodian

/-- What the query for due rows makes sure of, whichever ways of delivery it is for. -/
theorem DueQuery.of_selects {query : DueQuery} {row : Row} (h : query.selects row = true) :
    row.deadLettered = false ∧ row.nextAttemptAt ≤ query.now ∧ row.status ≠ .processed ∧
      (row.status ≠ .stored → row.retries < query.maxRetries) := by
  unfold selects at h
  cases hstatus : row.status <;> simp_all

/-- Whatever its fields are, no guard stands in the way of a row that is due, and none in the way of
settling it once it was won. -/
theorem Custodian.admits_of_selects {query : DueQuery} {row : Row} (h : query.selects row = true)
    (claimTimeout : Span) : Custodian.Admits κ ⟨query.maxRetries, claimTimeout⟩ row query.now := by
  obtain ⟨hlive, hdue, hopen, hroom⟩ := DueQuery.of_selects h
  have hfree : row.status ≠ .processing → row.status = .stored ∨ row.status = .failed := by
    cases hstatus : row.status <;> simp [hstatus] at hopen ⊢
  constructor
  · intro hheld
    exact if_pos (hasExpired_iff.2 ⟨hlive, hheld, hdue⟩)
  · intro hnobody
    refine ofExcept_checked (Row.refusal?_eq_none_iff.2 ⟨?_, hlive, fun hfailed => ?_⟩)
    · rcases hfree hnobody with hstatus | hstatus
      · rw [hstatus]
        rfl
      · rw [hstatus]
        rfl
    · exact hroom (by rw [hfailed]; decide)
  · intro hnobody next
    exact if_pos (mayDefer_iff.2 ⟨hlive, hfree hnobody⟩)
  · intro hheld old _ hstill
    exact honours_of_claimed _ (claimed_of_reclaim hheld old hstill)
  · intro hnobody old _
    exact honours_of_claimed _ ⟨rfl, hlive⟩

end Courier
