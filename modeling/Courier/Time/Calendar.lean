/-
The proleptic Gregorian calendar.  Days are counted from 1970-01-01; years are counted from March
inside a cycle of 400, so that the leap day comes last.
-/
namespace Courier

/-- A day of the calendar. -/
structure CivilDate where
  year : Int
  month : Nat
  day : Nat
deriving DecidableEq, Repr

def isLeapYear (year : Int) : Bool :=
  year % 4 == 0 && (year % 100 != 0 || year % 400 == 0)

def monthLength (year : Int) (month : Nat) : Nat :=
  if month = 2 then (if isLeapYear year then 29 else 28)
  else if month = 4 ∨ month = 6 ∨ month = 9 ∨ month = 11 then 30
  else 31

/-- The month and the day exist. -/
def CivilDate.Exists (date : CivilDate) : Prop :=
  1 ≤ date.month ∧ date.month ≤ 12 ∧ 1 ≤ date.day ∧ date.day ≤ monthLength date.year date.month

instance (date : CivilDate) : Decidable date.Exists :=
  inferInstanceAs (Decidable (_ ∧ _ ∧ _ ∧ _))

/-- The days in a cycle of 400 years. -/
def cycleDays : Int := 146097

/-- The day count of 0000-03-01, the first day of a cycle. -/
def firstCycleDay : Int := -719468

def CivilDate.dayCount (date : CivilDate) : Int :=
  let year := if date.month ≤ 2 then date.year - 1 else date.year
  let month := if date.month ≤ 2 then date.month + 9 else date.month - 3
  let yearOfCycle := year % 400
  let dayOfYear : Int := (153 * month + 2) / 5 + date.day - 1
  firstCycleDay + year / 400 * cycleDays + yearOfCycle * 365 + yearOfCycle / 4 -
    yearOfCycle / 100 + dayOfYear

def CivilDate.ofDayCount (count : Int) : CivilDate :=
  let fromStart := count - firstCycleDay
  let dayOfCycle := (fromStart % cycleDays).toNat
  let century := min (dayOfCycle / 36524) 3
  let dayOfCentury := dayOfCycle - century * 36524
  let leapSpan := dayOfCentury / 1461
  let dayOfSpan := dayOfCentury - leapSpan * 1461
  let yearOfSpan := min (dayOfSpan / 365) 3
  let dayOfYear := dayOfSpan - yearOfSpan * 365
  let month := (5 * dayOfYear + 2) / 153
  let year := fromStart / cycleDays * 400 + (century * 100 + leapSpan * 4 + yearOfSpan : Nat)
  { year := if month < 10 then year else year + 1
    month := if month < 10 then month + 3 else month - 9
    day := dayOfYear - (153 * month + 2) / 5 + 1 }

end Courier
