import Courier.Proofs.Time.Order
/-
Waiting.  A span leads from an instant to the one whose count of seconds is that much greater, or to
the latest instant where there is none.  A leap second has the count of the second before it: a span
that ends inside it stays in it, and a longer one counts from that second.  So the order of two
instants outlives any wait where their counts are in the same order, which only a leap second can
upset, and only for an instant in the second before it.
-/
namespace Courier

namespace Instant

variable {t u : Instant} {span : Span}

/-- Whoever waits a span from `t` on comes to `u`. -/
structure IsAfter (u t : Instant) (span : Span) : Prop where
  nanos : u.nanos = t.nanos + span.nanos
  leap : u.leap = true ↔ t.leap = true ∧ u.seconds = t.seconds

theorem IsAfter.unique {v : Instant} (hu : u.IsAfter t span) (hv : v.IsAfter t span) : u = v := by
  have hnanos : u.nanos = v.nanos := hu.nanos.trans hv.nanos.symm
  have hleap : u.leap = v.leap := by
    rw [Bool.eq_iff_iff, hu.leap, hv.leap]
    unfold seconds
    rw [hnanos]
  obtain ⟨n, inLeap, _, _, _⟩ := u
  obtain ⟨m, inOther, _, _, _⟩ := v
  subst hnanos hleap
  rfl

theorem later?_eq_some_iff : t.later? span = some u ↔ u.IsAfter t span := by
  unfold later?
  split
  · rename_i inside
    obtain ⟨hleap, hroom⟩ := inside
    have hsame : (t.nanos + span.nanos) / 1000000000 = t.nanos / 1000000000 := by omega
    rw [Option.some.injEq]
    constructor
    · rintro rfl
      exact ⟨rfl, iff_of_true rfl ⟨hleap, hsame⟩⟩
    · exact IsAfter.unique ⟨rfl, iff_of_true rfl ⟨hleap, hsame⟩⟩
  · rename_i outside
    rw [ofNanos?_eq_some_iff]
    constructor
    · rintro ⟨hnanos, hleap⟩
      refine ⟨hnanos, iff_of_false (by simp [hleap]) fun hstays => outside ⟨hstays.1, ?_⟩⟩
      have hsame : u.nanos / 1000000000 = t.nanos / 1000000000 := hstays.2
      omega
    · intro h
      have hnanos := h.nanos
      refine ⟨hnanos, Bool.not_eq_true _ ▸ fun hleap => ?_⟩
      obtain ⟨ht, hsame⟩ := h.leap.1 hleap
      have hsame : u.nanos / 1000000000 = t.nanos / 1000000000 := hsame
      exact outside ⟨ht, by omega⟩

/-- The time line does not reach that far just when the count would be too great. -/
theorem later?_eq_none_iff : t.later? span = none ↔ latestNanos < t.nanos + span.nanos := by
  constructor
  · intro h
    have hfirst := t.earliest_le
    unfold later? ofNanos? at h
    split at h
    · cases h
    · split at h
      · cases h
      · omega
  · intro hbeyond
    refine Option.eq_none_iff_forall_ne_some.2 fun u hu => ?_
    have hnanos := (later?_eq_some_iff.1 hu).nanos
    have hlast := u.le_latest
    omega

/-- Waiting comes to the instant that is due, or it stops at the end of the time line. -/
theorem after_cases (t : Instant) (span : Span) :
    (t.after span).IsAfter t span ∨
      latestNanos < t.nanos + span.nanos ∧ t.after span = latest := by
  unfold after
  cases hlater : t.later? span with
  | some u => exact Or.inl (later?_eq_some_iff.1 hlater)
  | none => exact Or.inr ⟨later?_eq_none_iff.1 hlater, rfl⟩

theorem after_eq (h : u.IsAfter t span) : t.after span = u := by
  unfold after
  rw [later?_eq_some_iff.2 h, Option.getD_some]

theorem after_eq_latest (h : ∀ u : Instant, ¬ u.IsAfter t span) : t.after span = latest := by
  rcases t.after_cases span with hafter | ⟨_, hlatest⟩
  · exact absurd hafter (h _)
  · exact hlatest

/-- Only the leap second after it lies beyond the latest instant. -/
theorem le_latest_of_not_leap (h : t.leap = false) : t ≤ latest := by
  have hlast : t.nanos ≤ latest.nanos := t.le_latest
  rw [le_iff, position_of_not_leap h, position_of_not_leap (t := latest) rfl]
  omega

/-- Outside leap seconds the order of instants is that of their counts. -/
theorem nanos_le_of_le (h : t ≤ u) (hu : u.leap = false) : t.nanos ≤ u.nanos := by
  rw [le_iff] at h
  cases ht : t.leap <;> simp [ht, hu] at h <;> omega

theorem le_after_of_le_latest (span : Span) (h : t ≤ latest) : t ≤ t.after span := by
  rcases t.le_after_or_latest span with hle | hlatest
  · exact hle
  · rw [hlatest]
    exact h

/-- The count decides the order, unless the earlier one is in a leap second that the later one has
not reached. -/
theorem le_of_nanos_le (hcount : t.nanos ≤ u.nanos)
    (hleap : t.leap = true → u.leap = true ∨ t.seconds < u.seconds) : t ≤ u := by
  rw [le_iff]
  unfold seconds at hleap
  cases ht : t.leap <;> cases hu : u.leap <;> simp [ht, hu] at hleap ⊢ <;> omega

/-- What comes after an instant in a leap second, and in no later second, is in it too. -/
theorem leap_of_le (h : t ≤ u) (ht : t.leap = true) (hsame : u.seconds ≤ t.seconds) :
    u.leap = true := by
  cases hu : u.leap with
  | true => rfl
  | false =>
      rw [le_iff, position_of_leap ht, position_of_not_leap hu] at h
      unfold seconds at hsame
      omega

theorem seconds_le (hcount : t.nanos ≤ u.nanos) : t.seconds ≤ u.seconds :=
  Int.ediv_le_ediv (by decide) hcount

/-- Whoever starts later, by the order and by the count, and waits longer does not arrive earlier. -/
theorem after_le_after_of_le {short long : Span} (hspan : short ≤ long) (h : t ≤ u)
    (hcount : t.nanos ≤ u.nanos) (hend : t ≤ latest) : t.after short ≤ u.after long := by
  have hspan : short.nanos ≤ long.nanos := hspan
  rcases t.after_cases short with hfirst | ⟨hbeyond, hfirst⟩
  · have hnanos := hfirst.nanos
    have harrived : t.seconds ≤ (t.after short).seconds := seconds_le (by omega)
    rcases u.after_cases long with hsecond | ⟨_, hsecond⟩
    · have hnanos' := hsecond.nanos
      refine le_of_nanos_le (by omega) fun hinside => ?_
      obtain ⟨ht, hstays⟩ := hfirst.leap.1 hinside
      rcases Int.lt_or_le (t.after short).seconds (u.after long).seconds with hlater | hsame
      · exact Or.inr hlater
      · have hstart : t.seconds ≤ u.seconds := seconds_le hcount
        have harrived' : u.seconds ≤ (u.after long).seconds := seconds_le (by omega)
        have hu : u.leap = true := leap_of_le h ht (by omega)
        exact Or.inl (hsecond.leap.2 ⟨hu, by omega⟩)
    · rw [hsecond]
      refine le_of_nanos_le (t.after short).le_latest fun hinside => ?_
      obtain ⟨ht, hstays⟩ := hfirst.leap.1 hinside
      rcases Int.lt_or_le (t.after short).seconds latest.seconds with hlater | hsame
      · exact Or.inr hlater
      · exact Or.inl (leap_of_le hend ht (by omega))
  · rcases u.after_cases long with hsecond | ⟨_, hsecond⟩
    · have hnanos := hsecond.nanos
      have hbound := (u.after long).le_latest
      omega
    · rw [hfirst, hsecond]
      exact Int.le_refl _

def secondOfDay (t : Instant) : Int :=
  t.seconds % 86400

/-- The nanoseconds of the second that a leap second follows. -/
def leapNanos (t : Instant) : Int :=
  if t.leap then 1000000000 else 0

/-- The nanoseconds from `t` to `u`: those between their days and those between their times of day.  A
leap second that one of the two is inside counts for the times after it on its own day. -/
def since (u t : Instant) : Int :=
  u.nanos + u.leapNanos - (t.nanos + t.leapNanos) +
    if t.leap = true ∧ t.secondOfDay < u.secondOfDay then 1000000000
    else if u.leap = true ∧ u.secondOfDay < t.secondOfDay then -1000000000
    else 0

theorem leapNanos_of_leap (h : t.leap = true) : t.leapNanos = 1000000000 :=
  if_pos h

theorem leapNanos_of_not_leap (h : t.leap = false) : t.leapNanos = 0 :=
  if_neg (by simp [h])

/-- To an instant outside leap seconds it is no longer than the counts say. -/
theorem since_le_of_not_leap (hu : u.leap = false) : u.since t ≤ u.nanos - t.nanos := by
  unfold since
  rw [leapNanos_of_not_leap hu]
  cases ht : t.leap with
  | false =>
      rw [leapNanos_of_not_leap ht]
      simp [hu]
  | true =>
      rw [leapNanos_of_leap ht]
      have hout : ¬ (u.leap = true ∧ u.secondOfDay < t.secondOfDay) := by simp [hu]
      rw [if_neg hout]
      split <;> omega

/-- Waiting takes no longer than the span. -/
theorem since_after_le (t : Instant) (span : Span) : (t.after span).since t ≤ span.nanos := by
  rcases t.after_cases span with hafter | ⟨hbeyond, hlatest⟩
  · have hnanos := hafter.nanos
    cases hleap : (t.after span).leap with
    | false =>
        have := since_le_of_not_leap (t := t) hleap
        omega
    | true =>
        obtain ⟨ht, hsame⟩ := hafter.leap.1 hleap
        unfold since secondOfDay
        rw [leapNanos_of_leap hleap, leapNanos_of_leap ht, hsame]
        simp only [Int.lt_irrefl, and_false, ↓reduceIte]
        omega
  · rw [hlatest]
    have hcount : latest.since t ≤ latest.nanos - t.nanos := since_le_of_not_leap rfl
    have hlast : latest.nanos = latestNanos := rfl
    omega

end Instant

end Courier
