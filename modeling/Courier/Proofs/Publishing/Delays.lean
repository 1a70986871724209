import Courier.Publishing.Backoff
/-
How far delays double.  The power of two is held in 32 bits, and the cap is taken as soon as it no
longer fits, even where base times power would still be below the cap.  The product itself is never in
the way: what exceeds the longest span exceeds every cap.
-/
namespace Courier

namespace Backoff

/-- The nanoseconds that doubling at each further failure comes to, at most the cap. -/
def doubled (backoff : Backoff) (attempt : Count) : Nat :=
  min (backoff.base.nanos * Nat.pow 2 (attempt.toNat - 1)) backoff.cap.nanos

theorem doubling?_eq_some {exponent : Nat} (h : exponent < 32) :
    doubling? exponent = some (Nat.pow 2 exponent) := by
  simp only [doubling?, h, ↓reduceIte]

theorem doubling?_eq_none {exponent : Nat} (h : 32 ≤ exponent) : doubling? exponent = none := by
  simp only [doubling?, Nat.not_lt.2 h, ↓reduceIte]

/-- The multiple of the base counts up to the cap, also where no span holds it. -/
theorem capped_product (backoff : Backoff) (factor : Nat) :
    (match backoff.base.times? factor with
      | some grown => grown.shorter backoff.cap
      | none => backoff.cap).nanos = min (backoff.base.nanos * factor) backoff.cap.nanos := by
  cases hproduct : backoff.base.times? factor with
  | some grown =>
      rw [Span.shorter_nanos, (Span.times?_eq_some_iff _ _ _).1 hproduct]
  | none =>
      have beyond : longestNanos < backoff.base.nanos * factor := by
        unfold Span.times? at hproduct
        split at hproduct
        · cases hproduct
        · omega
      exact (Nat.min_eq_right (Nat.le_trans backoff.cap.le_longest (Nat.le_of_lt beyond))).symm

theorem one_le_toNat {attempt : Count} (failed : attempt ≠ 0) : 1 ≤ attempt.toNat :=
  Nat.one_le_iff_ne_zero.2 fun none => failed (UInt32.toNat_inj.1 none)

/-- Up to the 32nd failure the delay is the exact one. -/
theorem delay_of_le (backoff : Backoff) {attempt : Count} (failed : attempt ≠ 0)
    (within : attempt.toNat ≤ 32) : (backoff.delay attempt).nanos = backoff.doubled attempt := by
  have := one_le_toNat failed
  unfold delay doubled
  rw [if_neg failed, doubling?_eq_some (by omega), Option.bind_some]
  exact backoff.capped_product _

/-- After that it is the cap. -/
theorem delay_of_lt (backoff : Backoff) {attempt : Count} (beyond : 32 < attempt.toNat) :
    backoff.delay attempt = backoff.cap := by
  have failed : attempt ≠ 0 := by
    rintro rfl
    exact absurd beyond (by decide)
  unfold delay
  rw [if_neg failed, doubling?_eq_none (by omega), Option.bind_none]

/-- Up to the 32nd failure the delay is the base doubled at each further failure, at most the cap, with
nothing lost to the bounds of numbers.  From the 33rd on it is the cap, which is the same delay if and
only if the doubled base has reached the cap by then. -/
theorem delay_doubles (backoff : Backoff) (attempt : Count) (failed : attempt ≠ 0) :
    (attempt.toNat ≤ 32 → (backoff.delay attempt).nanos = backoff.doubled attempt) ∧
      (32 < attempt.toNat → backoff.delay attempt = backoff.cap) ∧
      ((backoff.delay attempt).nanos = backoff.doubled attempt ↔
        attempt.toNat ≤ 32 ∨
          backoff.cap.nanos ≤ backoff.base.nanos * Nat.pow 2 (attempt.toNat - 1)) := by
  refine ⟨backoff.delay_of_le failed, backoff.delay_of_lt, ?_⟩
  rcases Nat.lt_or_ge 32 attempt.toNat with beyond | within
  · rw [backoff.delay_of_lt beyond, doubled]
    omega
  · exact iff_of_true (backoff.delay_of_le failed within) (Or.inl within)

/-- A base of one nanosecond with a cap of a minute. -/
def speck : Backoff :=
  ⟨Span.ofNanos 1, Span.ofSeconds 60⟩

/-- The delay of a speck doubles to a bit more than two seconds, and then it is the whole minute at once
and not the four seconds that come next. -/
theorem speck_jumps :
    (speck.delay 32).nanos = 2147483648 ∧ (speck.delay 33).nanos = 60000000000 ∧
      speck.doubled 33 = 4294967296 ∧ (speck.delay 33).nanos ≠ speck.doubled 33 := by
  decide +kernel

theorem speck_doubles :
    (32 : Count) ≠ 0 ∧ (speck.delay 32).nanos = speck.doubled 32 ∧ speck.doubled 32 = 2147483648 :=
  ⟨by decide, (delay_doubles speck 32 (by decide)).1 (by decide), by decide +kernel⟩

end Backoff

end Courier
