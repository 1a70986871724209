import Courier.Time.Calendar
/-
Counting days and back.  Every day count is that of a date that exists, and the days of a span of
time bound its years.
-/
namespace Courier

theorem isLeapYear_iff {year : Int} :
    isLeapYear year = true ↔ year % 4 = 0 ∧ (year % 100 ≠ 0 ∨ year % 400 = 0) := by
  simp [isLeapYear]

namespace CivilDate

/-- What a day count is made of.  Years and months are counted from March; the last day of a span of
four years is the leap day, which the last span of a century lacks unless it ends the cycle. -/
structure Parts where
  cycle : Int
  century : Nat
  leapSpan : Nat
  yearOfSpan : Nat
  month : Nat
  dayOfMonth : Nat
  century_le : century ≤ 3
  leapSpan_le : leapSpan ≤ 24
  yearOfSpan_le : yearOfSpan ≤ 3
  month_le : month ≤ 11
  in_month : (153 * month + 2) / 5 + dayOfMonth < (153 * (month + 1) + 2) / 5
  in_year : (153 * month + 2) / 5 + dayOfMonth ≤ 365
  leap_day : (153 * month + 2) / 5 + dayOfMonth = 365 →
    yearOfSpan = 3 ∧ (leapSpan = 24 → century = 3)

namespace Parts

variable (parts : Parts)

def year : Int :=
  parts.cycle * 400 + (parts.century * 100 + parts.leapSpan * 4 + parts.yearOfSpan : Nat)

def dayOfYear : Nat :=
  (153 * parts.month + 2) / 5 + parts.dayOfMonth

def count : Int :=
  firstCycleDay + parts.cycle * cycleDays +
    (parts.century * 36524 + parts.leapSpan * 1461 + parts.yearOfSpan * 365 + parts.dayOfYear : Nat)

def date : CivilDate where
  year := if parts.month < 10 then parts.year else parts.year + 1
  month := if parts.month < 10 then parts.month + 3 else parts.month - 9
  day := parts.dayOfMonth + 1

/-- The first two months of the calendar are the last two of the year from March on. -/
theorem date_cases :
    parts.month < 10 ∧ parts.date = ⟨parts.year, parts.month + 3, parts.dayOfMonth + 1⟩ ∨
      10 ≤ parts.month ∧ parts.date = ⟨parts.year + 1, parts.month - 9, parts.dayOfMonth + 1⟩ := by
  unfold date
  split
  · exact Or.inl ⟨‹_›, rfl⟩
  · exact Or.inr ⟨by omega, rfl⟩

/-- The day count of the year's first day, and of the days after it. -/
theorem count_eq : parts.count = firstCycleDay + parts.year / 400 * cycleDays +
    parts.year % 400 * 365 + parts.year % 400 / 4 - parts.year % 400 / 100 + parts.dayOfYear := by
  have hcentury := parts.century_le
  have hspan := parts.leapSpan_le
  have hyear := parts.yearOfSpan_le
  unfold count year cycleDays
  omega

theorem dayCount_date : parts.date.dayCount = parts.count := by
  have hmonth := parts.month_le
  rw [count_eq]
  unfold dayOfYear
  rcases parts.date_cases with ⟨hlt, heq⟩ | ⟨hge, heq⟩
  · have hlate : ¬ parts.month + 3 ≤ 2 := by omega
    rw [heq]
    simp only [dayCount, hlate, ↓reduceIte, Nat.add_sub_cancel]
    omega
  · have hearly : parts.month - 9 ≤ 2 := by omega
    have hback : parts.month - 9 + 9 = parts.month := by omega
    rw [heq]
    simp only [dayCount, hearly, ↓reduceIte, hback, Int.add_sub_cancel]
    omega

theorem exists_date : parts.date.Exists := by
  have hmonth := parts.month_le
  have hday := parts.in_month
  have hyear := parts.in_year
  have hcentury := parts.century_le
  have hspan := parts.leapSpan_le
  have hyearOfSpan := parts.yearOfSpan_le
  rcases parts.date_cases with ⟨hlt, heq⟩ | ⟨hge, heq⟩
  · rw [heq]
    simp only [CivilDate.Exists, monthLength]
    refine ⟨by omega, by omega, by omega, ?_⟩
    split
    · omega
    · split <;> omega
  · rw [heq]
    simp only [CivilDate.Exists, monthLength]
    refine ⟨by omega, by omega, by omega, ?_⟩
    split
    · split
      · omega
      · rename_i hfebruary hcommon
        have hnever : (153 * parts.month + 2) / 5 + parts.dayOfMonth ≠ 365 := by
          intro hlast
          obtain ⟨hthree, hends⟩ := parts.leap_day hlast
          refine hcommon (isLeapYear_iff.2 ?_)
          unfold year
          omega
        omega
    · split <;> omega

end Parts

/-- Every day count is made of parts. -/
theorem exists_parts (count : Int) :
    ∃ parts : Parts, parts.count = count ∧ ofDayCount count = parts.date := by
  have hcycle : (((count - firstCycleDay) % cycleDays).toNat : Int) =
      (count - firstCycleDay) % cycleDays := Int.toNat_of_nonneg (Int.emod_nonneg _ (by decide))
  have hlt : (count - firstCycleDay) % cycleDays < 146097 := Int.emod_lt_of_pos _ (by decide)
  generalize hday : ((count - firstCycleDay) % cycleDays).toNat = dayOfCycle at hcycle
  let century := min (dayOfCycle / 36524) 3
  let dayOfCentury := dayOfCycle - century * 36524
  let leapSpan := dayOfCentury / 1461
  let dayOfSpan := dayOfCentury - leapSpan * 1461
  let yearOfSpan := min (dayOfSpan / 365) 3
  let dayOfYear := dayOfSpan - yearOfSpan * 365
  let month := (5 * dayOfYear + 2) / 153
  have hback : (153 * month + 2) / 5 + (dayOfYear - (153 * month + 2) / 5) = dayOfYear := by omega
  refine ⟨{
    cycle := (count - firstCycleDay) / cycleDays
    century := century
    leapSpan := leapSpan
    yearOfSpan := yearOfSpan
    month := month
    dayOfMonth := dayOfYear - (153 * month + 2) / 5
    century_le := by omega
    leapSpan_le := by omega
    yearOfSpan_le := by omega
    month_le := by omega
    in_month := by omega
    in_year := by omega
    leap_day := by omega }, ?_, ?_⟩
  · unfold Parts.count Parts.dayOfYear
    have hsplit := Int.emod_add_mul_ediv (count - firstCycleDay) cycleDays
    simp only [hback]
    rw [← hcycle] at hsplit
    unfold cycleDays at hsplit ⊢
    omega
  · simp only [ofDayCount, hday]
    rfl

end CivilDate

end Courier
