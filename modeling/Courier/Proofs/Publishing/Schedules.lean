import Courier.Proofs.Publishing.Delays
import Courier.Proofs.Time.Waiting
/-
When failed messages may be tried again.  Delays grow with the failures up to the cap, and the next
attempt is one delay after the failure or at the end of the time line.  Later failures are tried again
later, except where a leap second brings the count of seconds out of the order of instants.
-/
namespace Courier

namespace Backoff

variable {backoff : Backoff}

theorem delay_zero (backoff : Backoff) : backoff.delay 0 = Span.zero :=
  if_pos rfl

theorem doubled_le_cap (backoff : Backoff) (attempt : Count) :
    backoff.doubled attempt ≤ backoff.cap.nanos :=
  Nat.min_le_right _ _

theorem doubled_le_doubled {few many : Count} (h : few ≤ many) :
    backoff.doubled few ≤ backoff.doubled many := by
  have hcount : few.toNat ≤ many.toNat := h
  have hpower : Nat.pow 2 (few.toNat - 1) ≤ Nat.pow 2 (many.toNat - 1) :=
    Nat.pow_le_pow_right (by decide) (by omega)
  have hproduct := Nat.mul_le_mul_left backoff.base.nanos hpower
  unfold doubled
  omega

theorem delay_le_cap (backoff : Backoff) (attempt : Count) :
    backoff.delay attempt ≤ backoff.cap := by
  change (backoff.delay attempt).nanos ≤ backoff.cap.nanos
  by_cases failed : attempt = 0
  · rw [failed, delay_zero]
    exact Nat.zero_le _
  rcases Nat.lt_or_ge 32 attempt.toNat with beyond | within
  · exact Nat.le_of_eq (congrArg Span.nanos (backoff.delay_of_lt beyond))
  · rw [backoff.delay_of_le failed within]
    exact backoff.doubled_le_cap attempt

/-- Where the power no longer fits, the delay jumps to the cap and never back. -/
theorem delay_le_delay {few many : Count} (h : few ≤ many) :
    backoff.delay few ≤ backoff.delay many := by
  change (backoff.delay few).nanos ≤ (backoff.delay many).nanos
  have hcount : few.toNat ≤ many.toNat := h
  by_cases failed : few = 0
  · rw [failed, delay_zero]
    exact Nat.zero_le _
  rcases Nat.lt_or_ge 32 many.toNat with beyond | within
  · rw [backoff.delay_of_lt beyond]
    exact backoff.delay_le_cap few
  · have again : many ≠ 0 := by
      rintro rfl
      exact absurd (one_le_toNat failed) (by simpa using hcount)
    rw [backoff.delay_of_le failed (by omega), backoff.delay_of_le again within]
    exact doubled_le_doubled h

/-- A message that fails later, or for a later time, is tried again no sooner, unless a leap second
interferes: the later failure is inside one, and the earlier one comes after it by the count of seconds
or is beyond the latest instant.  The next attempt comes no sooner than the failure, unless that is
beyond the latest instant, and no more than the cap after it.  It is due exactly one delay after the
failure if there is such an instant, and at the latest instant if there is none. -/
theorem schedules_advance (backoff : Backoff) (t : Instant) (m : Count) :
    (∀ u n, t ≤ u → (u.leap = true → t.nanos ≤ u.nanos ∧ t ≤ Instant.latest) → m ≤ n →
      backoff.nextAttemptAt t m ≤ backoff.nextAttemptAt u n) ∧
    (t ≤ Instant.latest → t ≤ backoff.nextAttemptAt t m) ∧
    (backoff.nextAttemptAt t m).since t ≤ backoff.cap.nanos ∧
    (∀ u : Instant, u.IsAfter t (backoff.delay m) → backoff.nextAttemptAt t m = u) ∧
    ((∀ u : Instant, ¬ u.IsAfter t (backoff.delay m)) →
      backoff.nextAttemptAt t m = Instant.latest) := by
  refine ⟨fun u n h hleap hattempts => ?_, Instant.le_after_of_le_latest _, ?_,
    fun u => Instant.after_eq, Instant.after_eq_latest⟩
  · have hdelay : backoff.delay m ≤ backoff.delay n := delay_le_delay hattempts
    have horder : t.nanos ≤ u.nanos ∧ t ≤ Instant.latest := by
      cases hu : u.leap with
      | true => exact hleap hu
      | false =>
          exact ⟨Instant.nanos_le_of_le h hu, Instant.le_trans h (Instant.le_latest_of_not_leap hu)⟩
    exact Instant.after_le_after_of_le hdelay h horder.1 horder.2
  · have hwait : (backoff.nextAttemptAt t m).since t ≤ (backoff.delay m).nanos :=
      Instant.since_after_le t _
    have hcap : (backoff.delay m).nanos ≤ backoff.cap.nanos := backoff.delay_le_cap m
    omega

/-- Delays of a second and more, up to a minute. -/
def steady : Backoff :=
  ⟨Span.ofSeconds 1, Span.ofSeconds 60⟩

/-- The last tenth of the second before a leap second. -/
def beforeLeap : Instant :=
  ⟨59900000000, false, by decide, by decide, by decide⟩

def insideLeap : Instant :=
  ⟨59500000000, true, by decide, by decide, by decide⟩

/-- What fails inside a leap second may overtake what failed in the second before it. -/
theorem leapSecond_overtakes :
    beforeLeap ≤ insideLeap ∧
      ¬ steady.nextAttemptAt beforeLeap 1 ≤ steady.nextAttemptAt insideLeap 1 := by
  decide +kernel

/-- The middle of the second before the leap second. -/
def halfBeforeLeap : Instant :=
  ⟨59500000000, false, by decide, by decide, by decide⟩

def halfAfterLeap : Instant :=
  ⟨60500000000, false, by decide, by decide, by decide⟩

/-- The middle of the leap second comes after that of the second before it, also by the count, and so do
the next attempts.  A second later than the latter is the middle of the next minute's first second. -/
theorem steady_advances :
    halfBeforeLeap ≤ insideLeap ∧ halfBeforeLeap.nanos ≤ insideLeap.nanos ∧
      halfBeforeLeap ≤ Instant.latest ∧
      steady.nextAttemptAt halfBeforeLeap 1 ≤ steady.nextAttemptAt insideLeap 2 ∧
      halfBeforeLeap ≤ steady.nextAttemptAt halfBeforeLeap 1 ∧
      (steady.nextAttemptAt halfBeforeLeap 1).since halfBeforeLeap ≤ steady.cap.nanos ∧
      halfAfterLeap.IsAfter halfBeforeLeap (steady.delay 1) ∧
      steady.nextAttemptAt halfBeforeLeap 1 = halfAfterLeap := by
  have horder : halfBeforeLeap ≤ insideLeap := by decide
  have hcount : halfBeforeLeap.nanos ≤ insideLeap.nanos := by decide
  have hlatest : halfBeforeLeap ≤ Instant.latest := by decide
  have hafter : halfAfterLeap.IsAfter halfBeforeLeap (steady.delay 1) :=
    ⟨by decide +kernel, by decide +kernel⟩
  obtain ⟨hadvances, hnot, hcap, hexact, _⟩ := schedules_advance steady halfBeforeLeap 1
  exact ⟨horder, hcount, hlatest,
    hadvances insideLeap 2 horder (fun _ => ⟨hcount, hlatest⟩) (by decide), hnot hlatest, hcap,
    hafter, hexact halfAfterLeap hafter⟩

end Backoff

end Courier
