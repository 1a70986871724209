/-
Spans of time: whole nanoseconds, at most 2^64 seconds less one nanosecond.
-/
namespace Courier

/-- The nanoseconds of the longest span. -/
def longestNanos : Nat := 18446744073709551615999999999

/-- A length of time. -/
structure Span where
  nanos : Nat
  le_longest : nanos ≤ longestNanos
deriving DecidableEq, Repr

namespace Span

instance : LE Span := ⟨fun a b => a.nanos ≤ b.nanos⟩

instance : LT Span := ⟨fun a b => a.nanos < b.nanos⟩

instance (a b : Span) : Decidable (a ≤ b) := inferInstanceAs (Decidable (a.nanos ≤ b.nanos))

instance (a b : Span) : Decidable (a < b) := inferInstanceAs (Decidable (a.nanos < b.nanos))

def zero : Span := ⟨0, Nat.zero_le _⟩

/-- The span of so many nanoseconds, or the longest one. -/
def ofNanos (nanos : Nat) : Span :=
  ⟨min nanos longestNanos, Nat.min_le_right _ _⟩

def ofMillis (millis : Nat) : Span :=
  ofNanos (millis * 1000000)

def ofSeconds (seconds : Nat) : Span :=
  ofNanos (seconds * 1000000000)

def shorter (a b : Span) : Span :=
  if a ≤ b then a else b

/-- A multiple of a span; none when it would exceed the longest span. -/
def times? (span : Span) (factor : Nat) : Option Span :=
  if h : span.nanos * factor ≤ longestNanos then some ⟨span.nanos * factor, h⟩ else none

/-- The digits of a fraction with `places` places, without the zeros at its end. -/
def fractionDigits (places : Nat) (fraction : Nat) : List Char :=
  let digits := Nat.toDigits 10 fraction
  let padded := List.replicate (places - digits.length) '0' ++ digits
  (padded.reverse.dropWhile (· == '0')).reverse

/-- A span counted in a unit of `10 ^ places` nanoseconds. -/
def textIn (unit : String) (places : Nat) (nanos : Nat) : String :=
  let whole := toString (nanos / Nat.pow 10 places)
  let fraction := nanos % Nat.pow 10 places
  if fraction = 0 then whole ++ unit
  else whole ++ "." ++ String.ofList (fractionDigits places fraction) ++ unit

/-- The largest of the units s, ms, µs and ns that leaves a whole part, with the fraction that
loses nothing. -/
def text (span : Span) : String :=
  if 1000000000 ≤ span.nanos then textIn "s" 9 span.nanos
  else if 1000000 ≤ span.nanos then textIn "ms" 6 span.nanos
  else if 1000 ≤ span.nanos then textIn "µs" 3 span.nanos
  else textIn "ns" 0 span.nanos

@[simp]
theorem shorter_nanos (a b : Span) : (shorter a b).nanos = min a.nanos b.nanos := by
  unfold shorter
  split
  · exact (Nat.min_eq_left ‹a.nanos ≤ b.nanos›).symm
  · exact (Nat.min_eq_right (Nat.le_of_not_le ‹¬ a.nanos ≤ b.nanos›)).symm

theorem times?_eq_some_iff (span product : Span) (factor : Nat) :
    span.times? factor = some product ↔ product.nanos = span.nanos * factor := by
  unfold times?
  split
  · rw [Option.some.injEq]
    constructor
    · rintro rfl
      rfl
    · intro h
      cases product
      simp_all
  · constructor
    · simp
    · intro h
      exact absurd (h ▸ product.le_longest) ‹_›

end Span

end Courier
