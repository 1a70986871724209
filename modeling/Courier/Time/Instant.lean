import Courier.Time.Span
/-
Instants of UTC, from the year -262143 to the year 262142.  Time is counted in nanoseconds since
1970-01-01T00:00:00Z, leap seconds left out; an instant inside a leap second has the count of the
second before it and says so.  A leap second follows the whole of that second, as second 60 of its
minute.  Moving an instant past the latest one stops there.
-/
namespace Courier

/-- -262143-01-01T00:00:00Z -/
def earliestNanos : Int := -8334601228800000000000

/-- +262142-12-31T23:59:59.999999999Z -/
def latestNanos : Int := 8210266876799999999999

/-- A point on the time line.  A leap second ends a minute. -/
structure Instant where
  nanos : Int
  leap : Bool
  earliest_le : earliestNanos ≤ nanos
  le_latest : nanos ≤ latestNanos
  minute_ends : leap = true → nanos / 1000000000 % 60 = 59
deriving DecidableEq, Repr

namespace Instant

/-- The whole seconds since 1970, rounded down. -/
def seconds (t : Instant) : Int :=
  t.nanos / 1000000000

/-- The nanoseconds into the second. -/
def subsecond (t : Instant) : Nat :=
  (t.nanos % 1000000000).toNat

/-- Where an instant stands in the order of time, every second being given room for a leap second
after it. -/
def position (t : Instant) : Int :=
  t.nanos / 1000000000 * 2000000000 + t.nanos % 1000000000 + (if t.leap then 1000000000 else 0)

instance : LE Instant := ⟨fun a b => a.position ≤ b.position⟩

instance : LT Instant := ⟨fun a b => a.position < b.position⟩

instance (a b : Instant) : Decidable (a ≤ b) :=
  inferInstanceAs (Decidable (a.position ≤ b.position))

instance (a b : Instant) : Decidable (a < b) :=
  inferInstanceAs (Decidable (a.position < b.position))

/-- The instant with so many nanoseconds, when there is one. -/
def ofNanos? (nanos : Int) : Option Instant :=
  if h : earliestNanos ≤ nanos ∧ nanos ≤ latestNanos then
    some ⟨nanos, false, h.1, h.2, by simp⟩
  else none

/-- The greatest instant outside a leap second. -/
def latest : Instant := ⟨latestNanos, false, by decide, Int.le_refl _, by simp⟩

/-- The least instant. -/
def earliest : Instant := ⟨earliestNanos, false, Int.le_refl _, by decide, by simp⟩

/-- The instant a span later, when the time line reaches that far.  Inside a leap second, a span that
does not lead out of it stays there; any other is counted from the second before. -/
def later? (t : Instant) (span : Span) : Option Instant :=
  if inside : t.leap = true ∧ t.nanos % 1000000000 + span.nanos < 1000000000 then
    some
      { nanos := t.nanos + span.nanos
        leap := true
        earliest_le := by have := t.earliest_le; omega
        le_latest := by
          have := t.le_latest
          unfold latestNanos at *
          omega
        minute_ends := fun _ => by
          have := t.minute_ends inside.1
          omega }
  else ofNanos? (t.nanos + span.nanos)

/-- The instant a span later, or the latest one. -/
def after (t : Instant) (span : Span) : Instant :=
  (t.later? span).getD latest

/-- An instant moved by so many nanoseconds either way, kept inside the time line. -/
def shift (t : Instant) (nanos : Int) : Instant :=
  match ofNanos? (t.nanos + nanos) with
  | some moved => moved
  | none => if nanos < 0 then earliest else latest

/-- What a clock shows that knows no leap seconds: in one, it is already in the next minute. -/
def onClock (t : Instant) : Instant :=
  if t.leap then t.shift 1000000000 else t

theorem ofNanos?_eq_some_iff {nanos : Int} {t : Instant} :
    ofNanos? nanos = some t ↔ t.nanos = nanos ∧ t.leap = false := by
  unfold ofNanos?
  split
  · rw [Option.some.injEq]
    constructor
    · rintro rfl
      exact ⟨rfl, rfl⟩
    · rintro ⟨rfl, hleap⟩
      obtain ⟨_, inLeap, _, _, _⟩ := t
      cases hleap
      rfl
  · rename_i houtside
    refine iff_of_false (fun h => by cases h) ?_
    rintro ⟨rfl, _⟩
    exact houtside ⟨t.earliest_le, t.le_latest⟩

@[simp]
theorem position_of_not_leap {t : Instant} (h : t.leap = false) :
    t.position = t.nanos / 1000000000 * 2000000000 + t.nanos % 1000000000 := by
  simp [position, h]

@[simp]
theorem position_of_leap {t : Instant} (h : t.leap = true) : t.position =
    t.nanos / 1000000000 * 2000000000 + t.nanos % 1000000000 + 1000000000 := by
  simp [position, h]

theorem later?_of_not_leap (t : Instant) (span : Span) (h : t.leap = false) :
    t.later? span = ofNanos? (t.nanos + span.nanos) :=
  dif_neg (by simp [h])

@[simp]
theorem after_nanos (t : Instant) (span : Span) (h : t.leap = false) :
    (t.after span).nanos = min (t.nanos + span.nanos) latestNanos := by
  have := t.earliest_le
  unfold after
  rw [later?_of_not_leap t span h]
  unfold ofNanos?
  split
  · rename_i hinside
    exact (Int.min_eq_left hinside.2).symm
  · have hbeyond : latestNanos ≤ t.nanos + span.nanos := by omega
    exact (Int.min_eq_right hbeyond).symm

@[simp]
theorem leap_after (t : Instant) (span : Span) (h : t.leap = false) :
    (t.after span).leap = false := by
  unfold after
  rw [later?_of_not_leap t span h]
  unfold ofNanos?
  split <;> rfl

theorem le_after (t : Instant) (span : Span) (h : t.leap = false) : t ≤ t.after span := by
  have := t.le_latest
  change t.position ≤ (t.after span).position
  simp only [h, position_of_not_leap, leap_after, after_nanos]
  omega

end Instant

end Courier
