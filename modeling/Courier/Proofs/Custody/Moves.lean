import Courier.Custody.Custodian
/-
The moves of a row.  A custodian changes a row only after a look at it, and whatever the look allows
is one of six moves along the delivery state machine.
-/
namespace Courier

theorem Row.refusal?_eq_none_iff {row : Row} {next : Status} {maxRetries : Count} :
    row.refusal? next maxRetries = none ↔ row.status.leadsTo next = true ∧
      row.deadLettered = false ∧ (row.status = .failed → row.retries < maxRetries) := by
  unfold refusal?
  cases hedge : row.status.leadsTo next with
  | false => simp
  | true =>
      cases hdead : row.deadLettered with
      | true => simp
      | false =>
          by_cases hfailed : row.status = .failed
          · simp [hfailed, UInt32.not_le]
          · simp [hfailed]

theorem Custodian.hasExpired_iff {row : Row} {now : Instant} :
    Custodian.hasExpired row now = true ↔
      row.deadLettered = false ∧ row.status = .processing ∧ row.nextAttemptAt ≤ now := by
  simp [hasExpired, and_assoc]

theorem Custodian.mayDefer_iff {row : Row} :
    Custodian.mayDefer row = true ↔
      row.deadLettered = false ∧ (row.status = .stored ∨ row.status = .failed) := by
  simp [mayDefer]

namespace Custodian

variable (custodian : Custodian) (row : Row)

/-- At the ceiling a claim that has run out is a failure like any other. -/
theorem reclaimChange_cases (now : Instant) :
    (custodian.maxRetries ≤ Count.next row.retries ∧ custodian.reclaimChange row now =
      custodian.failureChange row (some (expiryReason row)) now) ∨
    (Count.next row.retries < custodian.maxRetries ∧ custodian.reclaimChange row now =
      { Change.of row with
        retries := Count.next row.retries
        lastError := some (expiryReason row)
        nextAttemptAt := custodian.claimDeadline now }) := by
  by_cases h : custodian.maxRetries ≤ Count.next row.retries
  · exact Or.inl ⟨h, if_pos h⟩
  · exact Or.inr ⟨UInt32.not_le.1 h, if_neg h⟩

theorem deferChange_cases (next : Instant) :
    (custodian.maxRetries ≤ Count.next row.deferrals ∧ custodian.deferChange row next =
      { Change.of row with
        deferrals := Count.next row.deferrals
        nextAttemptAt := next
        deadLettered := true
        lastError := some ("cause unresolved after " ++
          toString (Count.next row.deferrals).toNat ++ " deferrals") }) ∨
    (Count.next row.deferrals < custodian.maxRetries ∧ custodian.deferChange row next =
      { Change.of row with
        deferrals := Count.next row.deferrals
        nextAttemptAt := next }) := by
  by_cases h : custodian.maxRetries ≤ Count.next row.deferrals
  · exact Or.inl ⟨h, if_pos h⟩
  · exact Or.inr ⟨UInt32.not_le.1 h, if_neg h⟩

end Custodian

/-- The changes that a custodian makes after a look at a row, whatever its limits are. -/
inductive Lawful (row : Row) : Change → Prop where
  | claim (custodian : Custodian) (now : Instant)
      (hlook : row.refusal? .processing custodian.maxRetries = none) :
      Lawful row (custodian.claimChange row now)
  | processed (custodian : Custodian) (now : Instant)
      (hlook : row.refusal? .processed custodian.maxRetries = none) :
      Lawful row (Custodian.processedChange row now)
  | failure (custodian : Custodian) (reason : Option String) (now next : Instant)
      (hlook : row.refusal? .failed custodian.maxRetries = none) :
      Lawful row { custodian.failureChange row reason now with nextAttemptAt := next }
  | malformed (custodian : Custodian) (reason : String) (now : Instant)
      (hlook : row.refusal? .failed custodian.maxRetries = none) :
      Lawful row (Custodian.malformedChange row reason now)
  | reclaim (custodian : Custodian) (now : Instant)
      (hlook : Custodian.hasExpired row now = true) : Lawful row (custodian.reclaimChange row now)
  | postpone (custodian : Custodian) (next : Instant)
      (hlook : Custodian.mayDefer row = true) : Lawful row (custodian.deferChange row next)

inductive Custodian.Permits (custodian : Custodian) (row : Row) : Change → Prop where
  | claim (now : Instant) (hlook : row.refusal? .processing custodian.maxRetries = none) :
      Permits custodian row (custodian.claimChange row now)
  | processed (now : Instant) (hlook : row.refusal? .processed custodian.maxRetries = none) :
      Permits custodian row (processedChange row now)
  | failure (reason : Option String) (now next : Instant)
      (hlook : row.refusal? .failed custodian.maxRetries = none) :
      Permits custodian row { custodian.failureChange row reason now with nextAttemptAt := next }
  | malformed (reason : String) (now : Instant)
      (hlook : row.refusal? .failed custodian.maxRetries = none) :
      Permits custodian row (malformedChange row reason now)
  | reclaim (now : Instant) (hlook : hasExpired row now = true) :
      Permits custodian row (custodian.reclaimChange row now)
  | postpone (next : Instant) (hlook : mayDefer row = true) :
      Permits custodian row (custodian.deferChange row next)

theorem Custodian.Permits.lawful {custodian : Custodian} {row : Row} {change : Change}
    (h : custodian.Permits row change) : Lawful row change := by
  cases h with
  | claim now hlook => exact .claim custodian now hlook
  | processed now hlook => exact .processed custodian now hlook
  | failure reason now next hlook => exact .failure custodian reason now next hlook
  | malformed reason now hlook => exact .malformed custodian reason now hlook
  | reclaim now hlook => exact .reclaim custodian now hlook
  | postpone next hlook => exact .postpone custodian next hlook

/-- What can become of a row in one change. -/
inductive Move where
  | claimStored
  | claimFailed
  | succeed
  | fail
  | postpone
  | takeOver
deriving DecidableEq, Repr

def Move.Leads (before after : Row) : Move → Prop
  | .claimStored => before.status = .stored ∧ after.status = .processing
  | .claimFailed => before.status = .failed ∧ after.status = .processing
  | .succeed => before.status = .processing ∧ after.status = .processed
  | .fail => before.status = .processing ∧ after.status = .failed
  | .postpone => (before.status = .stored ∨ before.status = .failed) ∧
      after.status = before.status ∧ after.deferrals.toNat = before.deferrals.toNat + 1
  | .takeOver => before.status = .processing ∧ after.status = .processing ∧
      after.retries.toNat = before.retries.toNat + 1

theorem Move.eq_of_leads {before after : Row} {move other : Move} (h : move.Leads before after)
    (hother : other.Leads before after) : move = other := by
  cases move <;> cases other <;> grind [Leads]

/-- The same message, whatever has become of its delivery. -/
structure Row.SameMessage (before after : Row) : Prop where
  id : after.id = before.id
  messageId : after.messageId = before.messageId
  dataType : after.dataType = before.dataType
  data : after.data = before.data
  delivery : after.delivery = before.delivery
  createdAt : after.createdAt = before.createdAt
  correlationId : after.correlationId = before.correlationId
  causationId : after.causationId = before.causationId

theorem Row.sameMessage_apply (row : Row) (change : Change) : row.SameMessage (row.apply change) :=
  ⟨rfl, rfl, rfl, rfl, rfl, rfl, rfl, rfl⟩

/-- What holds of every row from its staging on.  A counter that has no room for one more deferral
has made its row a dead letter, under any ceiling. -/
structure Row.Regular (row : Row) : Prop where
  undelivered : row.deadLettered = true → row.status = .stored ∨ row.status = .failed
  deferrals : row.deadLettered = false → row.deferrals < Count.greatest

theorem Row.fresh_regular (id : RowId) (draft : Draft) (now : Instant) :
    (Row.fresh id draft now).Regular :=
  ⟨nofun, fun _ => show (0 : Count) < Count.greatest by decide⟩

theorem Count.le_greatest (n : Count) : n ≤ Count.greatest := by
  have hn := n.toNat_lt
  rw [UInt32.le_iff_toNat_le]
  simp [Count.greatest]
  omega

theorem Count.next_of_lt {n : Count} (h : n < Count.greatest) :
    (Count.next n).toNat = n.toNat + 1 := by
  have hlt : n.toNat < 4294967295 := by simpa [Count.greatest, UInt32.lt_iff_toNat_lt] using h
  rw [Count.next_toNat]
  omega

theorem Count.lt_next {n : Count} (h : n < Count.greatest) : n < Count.next n := by
  rw [UInt32.lt_iff_toNat_lt, Count.next_of_lt h]
  exact Nat.lt_succ_self _

theorem Count.lt_of_next_lt {n m : Count} (h : Count.next n < m) : n < Count.greatest := by
  have hm := m.toNat_lt
  have hlt : (Count.next n).toNat < m.toNat := UInt32.lt_iff_toNat_lt.1 h
  rw [Count.next_toNat] at hlt
  rw [UInt32.lt_iff_toNat_lt]
  simp only [Count.greatest]
  simp
  omega

namespace Lawful

variable {row : Row} {change : Change}

theorem status_of_leaves {status next : Status} (h : status.leadsTo next = true)
    (hnext : next ≠ .processing) : status = .processing := by
  cases status <;> cases next <;> simp_all [Status.leadsTo]

/-- No lawful change is made to a row that is done for good. -/
theorem not_terminal (h : Lawful row change) : row.isTerminal = false := by
  have hlive : ∀ {next maxRetries}, row.refusal? next maxRetries = none → row.isTerminal = false := by
    intro next maxRetries hlook
    obtain ⟨hedge, hdead, _⟩ := Row.refusal?_eq_none_iff.1 hlook
    unfold Row.isTerminal
    rw [hdead]
    cases hstatus : row.status with
    | processed =>
        rw [hstatus] at hedge
        cases next <;> cases hedge
    | _ => rfl
  cases h with
  | claim custodian now hlook => exact hlive hlook
  | processed custodian now hlook => exact hlive hlook
  | failure custodian reason now next hlook => exact hlive hlook
  | malformed custodian reason now hlook => exact hlive hlook
  | reclaim custodian now hlook =>
      obtain ⟨hdead, hstatus, _⟩ := Custodian.hasExpired_iff.1 hlook
      simp [hdead, hstatus]
  | postpone custodian next hlook =>
      obtain ⟨hdead, hstatus | hstatus⟩ := Custodian.mayDefer_iff.1 hlook
      · simp [hdead, hstatus]
      · simp [hdead, hstatus]

theorem live (h : Lawful row change) : row.deadLettered = false :=
  (Row.isTerminal_eq_false_iff.1 h.not_terminal).2

/-- A lawful change is one move.  The deferral counter cannot be full, for then the row would be a
dead letter. -/
theorem leads (h : Lawful row change) (hregular : row.Regular) :
    ∃ move : Move, move.Leads row (row.apply change) := by
  cases h with
  | claim custodian now hlook =>
      obtain ⟨hedge, _, _⟩ := Row.refusal?_eq_none_iff.1 hlook
      cases hstatus : row.status with
      | stored => exact ⟨.claimStored, hstatus, rfl⟩
      | failed => exact ⟨.claimFailed, hstatus, rfl⟩
      | processing =>
          rw [hstatus] at hedge
          cases hedge
      | processed =>
          rw [hstatus] at hedge
          cases hedge
  | processed custodian now hlook =>
      exact ⟨.succeed, status_of_leaves (Row.refusal?_eq_none_iff.1 hlook).1 (by decide), rfl⟩
  | failure custodian reason now next hlook =>
      exact ⟨.fail, status_of_leaves (Row.refusal?_eq_none_iff.1 hlook).1 (by decide), rfl⟩
  | malformed custodian reason now hlook =>
      exact ⟨.fail, status_of_leaves (Row.refusal?_eq_none_iff.1 hlook).1 (by decide), rfl⟩
  | reclaim custodian now hlook =>
      obtain ⟨_, hstatus, _⟩ := Custodian.hasExpired_iff.1 hlook
      rcases custodian.reclaimChange_cases row now with ⟨_, heq⟩ | ⟨hlt, heq⟩
      · rw [heq]
        exact ⟨.fail, hstatus, rfl⟩
      · rw [heq]
        exact ⟨.takeOver, hstatus, hstatus, Count.next_of_lt (Count.lt_of_next_lt hlt)⟩
  | postpone custodian next hlook =>
      obtain ⟨hdead, hstatus⟩ := Custodian.mayDefer_iff.1 hlook
      have hdeferrals := Count.next_of_lt (hregular.deferrals hdead)
      rcases custodian.deferChange_cases row next with ⟨_, heq⟩ | ⟨_, heq⟩
      · rw [heq]
        exact ⟨.postpone, hstatus, rfl, hdeferrals⟩
      · rw [heq]
        exact ⟨.postpone, hstatus, rfl, hdeferrals⟩

theorem regular (h : Lawful row change) (hregular : row.Regular) : (row.apply change).Regular := by
  have hlive := h.live
  have hnever : row.deadLettered = true →
      (row.apply change).status = .stored ∨ (row.apply change).status = .failed :=
    fun hdead => absurd (hlive.symm.trans hdead) Bool.false_ne_true
  cases h with
  | claim custodian now hlook => exact ⟨hnever, hregular.deferrals⟩
  | processed custodian now hlook => exact ⟨hnever, hregular.deferrals⟩
  | failure custodian reason now next hlook =>
      exact ⟨fun _ => Or.inr rfl, fun _ => hregular.deferrals hlive⟩
  | malformed custodian reason now hlook =>
      exact ⟨fun _ => Or.inr rfl, fun _ => hregular.deferrals hlive⟩
  | reclaim custodian now hlook =>
      rcases custodian.reclaimChange_cases row now with ⟨_, heq⟩ | ⟨_, heq⟩
      · rw [heq]
        exact ⟨fun _ => Or.inr rfl, fun _ => hregular.deferrals hlive⟩
      · rw [heq] at hnever ⊢
        exact ⟨hnever, hregular.deferrals⟩
  | postpone custodian next hlook =>
      obtain ⟨_, hstatus⟩ := Custodian.mayDefer_iff.1 hlook
      rcases custodian.deferChange_cases row next with ⟨_, heq⟩ | ⟨hlt, heq⟩
      · rw [heq]
        exact ⟨fun _ => hstatus, nofun⟩
      · rw [heq]
        refine ⟨fun _ => hstatus, fun _ => ?_⟩
        exact UInt32.lt_of_lt_of_le hlt (Count.le_greatest _)

end Lawful

end Courier
