import Courier.Time.Instant
/-
The order of instants and the end of the time line.  Moving on never leads back, except that it stops
at the latest instant also from inside the leap second that would follow it.
-/
namespace Courier

namespace Instant

theorem le_iff {t u : Instant} : t ≤ u ↔ t.position ≤ u.position :=
  Iff.rfl

theorem le_trans {t u v : Instant} (h : t ≤ u) (h' : u ≤ v) : t ≤ v :=
  Int.le_trans h h'

/-- An instant is told by where it stands. -/
theorem eq_of_position_eq {t u : Instant} (h : t.position = u.position) : t = u := by
  have hboth : t.nanos = u.nanos ∧ t.leap = u.leap := by
    cases ht : t.leap <;> cases hu : u.leap <;> simp [ht, hu] at h ⊢ <;> omega
  obtain ⟨_, _, _, _, _⟩ := t
  obtain ⟨_, _, _, _, _⟩ := u
  obtain ⟨rfl, rfl⟩ := hboth
  rfl

theorem not_lt_of_le {t u : Instant} (h : t ≤ u) : ¬ u < t :=
  Int.not_lt.2 h

/-- The instant itself, or the latest one where that comes first. -/
def saturated (t : Instant) : Instant :=
  if t ≤ latest then t else latest

theorem saturated_le_latest (t : Instant) : t.saturated ≤ latest := by
  unfold saturated
  split
  · assumption
  · exact Int.le_refl _

theorem saturated_le (t : Instant) : t.saturated ≤ t := by
  unfold saturated
  split
  · exact Int.le_refl _
  · rename_i h
    exact Int.le_of_lt (Int.not_le.1 h)

theorem le_after_or_latest (t : Instant) (span : Span) : t ≤ t.after span ∨ t.after span = latest := by
  cases hleap : t.leap with
  | false => exact Or.inl (t.le_after span hleap)
  | true =>
      unfold after later?
      split
      · refine Or.inl ?_
        rw [le_iff, position_of_leap hleap, position_of_leap (t := _) rfl]
        change _ ≤ (t.nanos + span.nanos) / _ * _ + (t.nanos + span.nanos) % _ + _
        omega
      · rename_i outside
        cases hfound : ofNanos? (t.nanos + span.nanos) with
        | none => exact Or.inr rfl
        | some u =>
            obtain ⟨hnanos, hout⟩ := ofNanos?_eq_some_iff.1 hfound
            have hfar : ¬ t.nanos % 1000000000 + span.nanos < 1000000000 :=
              fun hin => outside ⟨hleap, hin⟩
            refine Or.inl ?_
            rw [le_iff, position_of_leap hleap, Option.getD_some, position_of_not_leap hout, hnanos]
            omega

/-- Outside leap seconds, whoever starts later does not arrive earlier. -/
theorem after_le_after {t u : Instant} (span : Span) (ht : t.leap = false) (hu : u.leap = false)
    (h : t ≤ u) : t.after span ≤ u.after span := by
  rw [le_iff] at h ⊢
  simp only [ht, hu, position_of_not_leap, leap_after, after_nanos] at h ⊢
  omega

/-- What has come by then has come by any later time. -/
theorem le_after_of_le {bound t : Instant} (span : Span) (hbound : bound ≤ latest) (h : bound ≤ t) :
    bound ≤ t.after span := by
  rcases t.le_after_or_latest span with hle | heq
  · exact le_trans h hle
  · rw [heq]
    exact hbound

end Instant

/-- The start of the common count of time. -/
def epoch : Instant := ⟨0, false, by decide, by decide, by decide⟩

end Courier
