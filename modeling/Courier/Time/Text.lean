import Courier.Text.Blank
import Courier.Text.Numeral
import Courier.Time.Calendar
import Courier.Time.Instant
/-
How instants are written, after RFC 3339, and how they are read.
-/
namespace Courier

/-- A number in exactly `width` decimal digits, its lowest ones. -/
def decimalDigits : Nat → Nat → List Char
  | 0, _ => []
  | width + 1, n => decimalDigits width (n / 10) ++ [Char.ofNat ('0'.toNat + n % 10)]

/-- A year has four digits; outside 0 to 9999 it has a sign and at least four. -/
def yearText (year : Int) : List Char :=
  if 0 ≤ year ∧ year ≤ 9999 then decimalDigits 4 year.toNat
  else
    let digits := Nat.toDigits 10 year.natAbs
    (if year < 0 then '-' else '+') :: (List.replicate (4 - digits.length) '0' ++ digits)

/-- The fraction of a second in 0, 3, 6 or 9 digits, the fewest that lose nothing. -/
def fractionText (nanos : Nat) : List Char :=
  if nanos = 0 then []
  else if nanos % 1000000 = 0 then '.' :: decimalDigits 3 (nanos / 1000000)
  else if nanos % 1000 = 0 then '.' :: decimalDigits 6 (nanos / 1000)
  else '.' :: decimalDigits 9 nanos

/-- Date and time of day of an instant, with what stands between them and what follows. -/
def Instant.textWith (between after : List Char) (t : Instant) : String :=
  let seconds := t.seconds
  let date := CivilDate.ofDayCount (seconds / 86400)
  let ofDay := (seconds % 86400).toNat
  String.ofList (yearText date.year ++ '-' :: decimalDigits 2 date.month ++
    '-' :: decimalDigits 2 date.day ++ between ++ decimalDigits 2 (ofDay / 3600) ++
    ':' :: decimalDigits 2 (ofDay / 60 % 60) ++
    ':' :: decimalDigits 2 (ofDay % 60 + (if t.leap then 1 else 0)) ++
    fractionText t.subsecond ++ after)

/-- The form in messages: `2024-01-01T00:00:00.5Z` -/
def Instant.text (t : Instant) : String :=
  t.textWith ['T'] ['Z']

/-- The form in sentences: `2024-01-01 00:00:00.5 UTC` -/
def Instant.sentence (t : Instant) : String :=
  t.textWith [' '] " UTC".toList

/-- The digits in front, at most `width` of them, as a number; none when there is none. -/
def takeDigits? (width : Nat) (text : List Char) : Option (Nat × List Char) :=
  let digits := (text.takeWhile fun c => (digitValue? c).isSome).take width
  match digits with
  | [] => none
  | _ => some (digits.foldl (fun value c => value * 10 + (digitValue? c).getD 0) 0,
      text.drop digits.length)

/-- A number after optional blanks. -/
def takeNumber? (width : Nat) (text : List Char) : Option (Nat × List Char) :=
  takeDigits? width (trimLeft text)

/-- A year after optional blanks: up to four digits, or a sign and any number of digits. -/
def takeYear? (text : List Char) : Option (Int × List Char) :=
  match trimLeft text with
  | '-' :: rest => (takeDigits? rest.length rest).map fun (year, rest) => (-(year : Int), rest)
  | '+' :: rest => (takeDigits? rest.length rest).map fun (year, rest) => ((year : Int), rest)
  | rest => (takeDigits? 4 rest).map fun (year, rest) => ((year : Int), rest)

/-- One given character after optional blanks. -/
def takeMark? (mark : Char) (text : List Char) : Option (List Char) :=
  match trimLeft text with
  | c :: rest => if c = mark then some rest else none
  | [] => none

/-- The fraction of a second in nanoseconds; digits beyond the ninth are dropped. -/
def takeFraction? (text : List Char) : Option (Nat × List Char) :=
  match text with
  | '.' :: rest => do
      let (value, later) ← takeDigits? 9 rest
      return (value * Nat.pow 10 (9 - (rest.length - later.length)),
        later.dropWhile fun c => (digitValue? c).isSome)
  | rest => some (0, rest)

/-- The offset from UTC in seconds: `Z`, `UTC`, or a sign, hours and minutes. -/
def takeOffset? (text : List Char) : Option (Int × List Char) :=
  match text with
  | 'Z' :: rest => some (0, rest)
  | 'z' :: rest => some (0, rest)
  | sign :: rest =>
      if (text.take 3).map Char.toUpper = ['U', 'T', 'C'] then some (0, text.drop 3)
      else do
        let negative ← if sign = '+' then some false
          else if sign = '-' ∨ sign = Char.ofNat 0x2212 then some true else none
        let (hours, rest) ← twoDigits? rest
        let (minutes, rest) ← twoDigits? (rest.dropWhile fun c => c == ':' || isBlank c)
        if minutes < 60 then
          let seconds : Int := hours * 3600 + minutes * 60
          return (if negative then -seconds else seconds, rest)
        else none
  | [] => none
where
  /-- A number of exactly two digits. -/
  twoDigits? : List Char → Option (Nat × List Char)
    | tens :: units :: rest => do
        let tens ← digitValue? tens
        let units ← digitValue? units
        return (tens * 10 + units, rest)
    | _ => none

/-- The instant of a local date and time of day under an offset. -/
def Instant.ofLocal? (date : CivilDate) (hour minute second nanos : Nat) (offset : Int) :
    Option Instant :=
  if date.Exists ∧ -262143 ≤ date.year ∧ date.year ≤ 262142 ∧ hour < 24 ∧ minute < 60 ∧
      second ≤ 60 ∧ -86400 < offset ∧ offset < 86400 then
    let leap := second == 60
    let ofDay : Int := hour * 3600 + minute * 60 + (if leap then 59 else second : Nat)
    match Instant.ofNanos? ((date.dayCount * 86400 + ofDay - offset) * 1000000000 + nanos) with
    | none => none
    | some t =>
        if h : leap = true → t.nanos / 1000000000 % 60 = 59 then
          some { t with leap := leap, minute_ends := h }
        else none
  else none

/-- Read an instant.  Blanks may surround every part, and a blank may take the place of the T. -/
def Instant.read? (text : String) : Option Instant := do
  let (year, rest) ← takeYear? text.toList
  let rest ← takeMark? '-' rest
  let (month, rest) ← takeNumber? 2 rest
  let rest ← takeMark? '-' rest
  let (day, rest) ← takeNumber? 2 rest
  let rest ← match rest with
    | 'T' :: rest => some rest
    | 't' :: rest => some rest
    | ' ' :: rest => some rest
    | _ => none
  let (hour, rest) ← takeNumber? 2 rest
  let rest ← takeMark? ':' rest
  let (minute, rest) ← takeNumber? 2 rest
  let rest ← takeMark? ':' rest
  let (second, rest) ← takeNumber? 2 rest
  let (nanos, rest) ← takeFraction? rest
  let (offset, rest) ← takeOffset? (trimLeft rest)
  if trimLeft rest = [] then Instant.ofLocal? ⟨year, month, day⟩ hour minute second nanos offset
  else none

end Courier
