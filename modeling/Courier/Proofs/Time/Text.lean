import Courier.Proofs.Time.Calendar
import Courier.Time.Text
import Mathlib.Data.List.Basic
/-
Reading what was written.  The text of an instant reads as that instant, leap seconds and years of
more than four digits included.
-/
namespace Courier

theorem digitValue?_digit : ∀ n < 10, digitValue? (Char.ofNat ('0'.toNat + n)) = some n := by
  decide

theorem digitValue?_of_isDigit {c : Char} (h : c.isDigit = true) :
    digitValue? c = some (c.toNat - '0'.toNat) := by
  have hdigit : '0' ≤ c ∧ c ≤ '9' := by
    simpa [Char.isDigit, Char.le_def] using h
  exact if_pos hdigit

theorem isBlank_of_digit {c : Char} (h : (digitValue? c).isSome = true) : isBlank c = false := by
  unfold digitValue? at h
  split at h
  · rename_i hdigit
    have hlow : 48 ≤ c.toNat := hdigit.1
    have hhigh : c.toNat ≤ 57 := hdigit.2
    simp only [isBlank, Bool.or_eq_false_iff, Bool.and_eq_false_iff, decide_eq_false_iff_not,
      beq_eq_false_iff_ne]
    omega
  · cases h

/-- Digits, one at least, that spell a number. -/
structure Spells (digits : List Char) (n : Nat) : Prop where
  digit : ∀ c ∈ digits, (digitValue? c).isSome = true
  nonempty : digits ≠ []
  value : digits.foldl (fun value c => value * 10 + (digitValue? c).getD 0) 0 = n

theorem length_decimalDigits (width n : Nat) : (decimalDigits width n).length = width := by
  induction width generalizing n with
  | zero => rfl
  | succ width ih => simp [decimalDigits, ih]

theorem spells_decimalDigits {width n : Nat} (hwidth : 0 < width) (h : n < Nat.pow 10 width) :
    Spells (decimalDigits width n) n := by
  constructor
  · clear hwidth h
    induction width generalizing n with
    | zero => nofun
    | succ width ih =>
        intro c hc
        rcases List.mem_append.1 hc with hmore | hlast
        · exact ih c hmore
        · rw [List.mem_singleton.1 hlast, digitValue?_digit _ (Nat.mod_lt n (by decide))]
          rfl
  · intro hnil
    have hlength := length_decimalDigits width n
    rw [hnil] at hlength
    exact absurd hlength (Nat.ne_of_lt hwidth)
  · clear hwidth
    induction width generalizing n with
    | zero => exact (Nat.lt_one_iff.1 h).symm
    | succ width ih =>
        have htens : n / 10 < Nat.pow 10 width := by
          have hless : n < Nat.pow 10 width * 10 := h
          omega
        have hlast := digitValue?_digit _ (Nat.mod_lt n (show 0 < 10 by decide))
        simp only [decimalDigits, List.foldl_append, List.foldl_cons, List.foldl_nil, ih htens, hlast,
          Option.getD_some]
        exact Nat.div_add_mod' n 10

theorem spells_toDigits (n : Nat) : Spells (Nat.toDigits 10 n) n := by
  have hdigit : ∀ c ∈ Nat.toDigits 10 n, digitValue? c = some (c.toNat - '0'.toNat) := fun c hc =>
    digitValue?_of_isDigit (Nat.isDigit_of_mem_toDigits (by decide) (by decide) hc)
  constructor
  · intro c hc
    rw [hdigit c hc]
    rfl
  · exact List.ne_nil_of_length_pos Nat.length_toDigits_pos
  · have hvalue : Nat.ofDigitChars 10 (Nat.toDigits 10 n) 0 = n :=
      Nat.ofDigitChars_toDigits (by decide) (by decide)
    refine Eq.trans (List.foldl_ext _ _ _ fun value c hc => ?_) hvalue
    rw [hdigit c hc, Nat.mul_comm value 10]
    rfl

namespace Spells

variable {digits rest : List Char} {n width : Nat}

/-- Zeros in front spell the same number. -/
theorem padded (h : Spells digits n) (count : Nat) : Spells (List.replicate count '0' ++ digits) n := by
  constructor
  · intro c hc
    rcases List.mem_append.1 hc with hzero | hdigit
    · rw [List.eq_of_mem_replicate hzero]
      rfl
    · exact h.digit c hdigit
  · simp [h.nonempty]
  · induction count with
    | zero => exact h.value
    | succ count ih =>
        rw [List.replicate_succ, List.cons_append, List.foldl_cons]
        exact ih

/-- Digits are no blanks. -/
theorem trimLeft_append (h : Spells digits n) : trimLeft (digits ++ rest) = digits ++ rest := by
  obtain ⟨c, more, rfl⟩ := List.exists_cons_of_ne_nil h.nonempty
  have hblank : isBlank c = false := isBlank_of_digit (h.digit c (List.mem_cons_self ..))
  simp [trimLeft, hblank]

/-- Digits are read up to the end of their field, or up to what is no digit. -/
theorem takeDigits? (h : Spells digits n) (hroom : digits.length ≤ width)
    (hstop : digits.length = width ∨ ∀ c ∈ rest.head?, digitValue? c = none) :
    takeDigits? width (digits ++ rest) = some (n, rest) := by
  have htaken : ((digits ++ rest).takeWhile fun c => (digitValue? c).isSome).take width = digits := by
    rw [List.takeWhile_append_of_pos h.digit]
    rcases hstop with hfull | hother
    · rw [← hfull, List.take_left]
    · have hnone : rest.takeWhile (fun c => (digitValue? c).isSome) = [] := by
        cases rest with
        | nil => rfl
        | cons c rest => simp [hother c rfl]
      rw [hnone, List.append_nil, List.take_of_length_le hroom]
  unfold Courier.takeDigits?
  rw [htaken]
  obtain ⟨c, more, heq⟩ := List.exists_cons_of_ne_nil h.nonempty
  have hvalue := h.value
  subst heq
  simp only [hvalue, List.drop_left]

theorem takeNumber? (h : Spells digits n) (hlength : digits.length = width) :
    takeNumber? width (digits ++ rest) = some (n, rest) := by
  rw [Courier.takeNumber?, h.trimLeft_append]
  exact h.takeDigits? (Nat.le_of_eq hlength) (Or.inl hlength)

end Spells

theorem takeNumber?_decimalDigits {n : Nat} (h : n < 100) (rest : List Char) :
    takeNumber? 2 (decimalDigits 2 n ++ rest) = some (n, rest) :=
  (spells_decimalDigits (by decide) h).takeNumber? (length_decimalDigits 2 n)

/-- Digits do not start with a character that is no digit. -/
theorem Spells.append_ne {digits rest other : List Char} {n : Nat} (h : Spells digits n) {c : Char}
    (hc : digitValue? c = none) : digits ++ rest ≠ c :: other := by
  obtain ⟨d, more, rfl⟩ := List.exists_cons_of_ne_nil h.nonempty
  intro heq
  have hdigit := h.digit d (List.mem_cons_self ..)
  rw [(List.cons.inj heq).1, hc] at hdigit
  cases hdigit

theorem takeYear?_yearText (year : Int) (rest : List Char) :
    takeYear? (yearText year ++ '-' :: rest) = some (year, '-' :: rest) := by
  unfold yearText
  split
  · rename_i hshort
    have hlt : year.toNat < 10 ^ 4 := by omega
    have hspells : Spells (decimalDigits 4 year.toNat) year.toNat :=
      spells_decimalDigits (by decide) hlt
    have hlength := length_decimalDigits 4 year.toNat
    have hread : takeDigits? 4 (decimalDigits 4 year.toNat ++ '-' :: rest) =
        some (year.toNat, '-' :: rest) := hspells.takeDigits? (Nat.le_of_eq hlength) (Or.inl hlength)
    unfold takeYear?
    rw [hspells.trimLeft_append]
    split
    · exact absurd ‹_› (hspells.append_ne rfl)
    · exact absurd ‹_› (hspells.append_ne rfl)
    · simp only [hread, Option.map_some, Int.toNat_of_nonneg hshort.1]
  · have hread : ∀ digits, Spells digits year.natAbs →
        takeDigits? (digits ++ '-' :: rest).length (digits ++ '-' :: rest) =
          some (year.natAbs, '-' :: rest) := by
      intro digits hspells
      refine hspells.takeDigits? (by simp) (Or.inr fun c hc => ?_)
      rw [← Option.some.inj hc]
      rfl
    have hdigits := hread _ ((spells_toDigits year.natAbs).padded
      (4 - (Nat.toDigits 10 year.natAbs).length))
    by_cases hneg : year < 0
    · have hback : -(year.natAbs : Int) = year := by omega
      simp only [hneg, ↓reduceIte, List.cons_append]
      change Option.map _ (takeDigits? _ _) = _
      simp only [hdigits, Option.map_some, hback]
    · have hback : (year.natAbs : Int) = year := by omega
      simp only [hneg, ↓reduceIte, List.cons_append]
      change Option.map _ (takeDigits? _ _) = _
      simp only [hdigits, Option.map_some, hback]

theorem takeFraction?_fractionText {nanos : Nat} (h : nanos < 1000000000) (rest : List Char) :
    takeFraction? (fractionText nanos ++ 'Z' :: rest) = some (nanos, 'Z' :: rest) := by
  have hread : ∀ places value, 0 < places → places ≤ 9 → value < 10 ^ places →
      takeFraction? ('.' :: decimalDigits places value ++ 'Z' :: rest) =
        some (value * 10 ^ (9 - places), 'Z' :: rest) := by
    intro places value hpos hle hlt
    have hlength := length_decimalDigits places value
    have hdigits : takeDigits? 9 (decimalDigits places value ++ 'Z' :: rest) =
        some (value, 'Z' :: rest) := by
      refine (spells_decimalDigits hpos hlt).takeDigits? (by omega) (Or.inr fun c hc => ?_)
      rw [← Option.some.inj hc]
      rfl
    have hplaces : (decimalDigits places value ++ 'Z' :: rest).length - ('Z' :: rest).length =
        places := by
      rw [List.length_append, hlength, Nat.add_sub_cancel]
    change Option.bind (takeDigits? 9 (decimalDigits places value ++ 'Z' :: rest)) _ = _
    rw [hdigits, Option.bind_some]
    change some (value * 10 ^ (9 - ((decimalDigits places value ++ 'Z' :: rest).length -
      ('Z' :: rest).length)), 'Z' :: rest) = _
    rw [hplaces]
  unfold fractionText
  split
  · rename_i hzero
    rw [hzero]
    rfl
  · split
    · rw [hread 3 _ (by decide) (by decide) (by omega)]
      congr 2
      omega
    · split
      · rw [hread 6 _ (by decide) (by decide) (by omega)]
        congr 2
        omega
      · rw [hread 9 _ (by decide) (by decide) (by omega)]
        congr 2
        omega

namespace CivilDate

/-- The days of the time line lie in its years. -/
theorem year_of_days (count : Int) (hlow : -96465292 ≤ count) (hhigh : count ≤ 95026236) :
    -262143 ≤ (ofDayCount count).year ∧ (ofDayCount count).year ≤ 262142 := by
  obtain ⟨parts, hcount, hdate⟩ := exists_parts count
  have hparts := parts.count_eq
  have hmonth := parts.month_le
  have hday := parts.in_month
  have hyear := parts.in_year
  unfold Parts.dayOfYear firstCycleDay cycleDays at hparts
  rw [hdate]
  rcases parts.date_cases with ⟨hlt, heq⟩ | ⟨hge, heq⟩
  · rw [heq]
    by_cases hfirst : parts.year = -262144
    · rw [hfirst] at hparts
      omega
    · simp only
      omega
  · rw [heq]
    by_cases hlast : parts.year = 262142
    · rw [hlast] at hparts
      omega
    · simp only
      omega

end CivilDate

namespace Instant

theorem ofNanos?_nanos (t : Instant) :
    ofNanos? t.nanos = some ⟨t.nanos, false, t.earliest_le, t.le_latest, nofun⟩ :=
  dif_pos ⟨t.earliest_le, t.le_latest⟩

/-- A date and a time of day in UTC are those of the instant that they make; second 60 is the leap
second. -/
theorem ofLocal?_eq_some {t : Instant} {date : CivilDate} {hour minute second : Nat}
    (hdate : date.Exists) (hfirst : -262143 ≤ date.year) (hlast : date.year ≤ 262142)
    (hhour : hour < 24) (hminute : minute < 60)
    (hsecond : (t.leap = false ∧ second < 60) ∨ t.leap = true ∧ second = 60)
    (hseconds : date.dayCount * 86400 +
      (hour * 3600 + minute * 60 + if t.leap then 59 else second : Nat) = t.seconds) :
    ofLocal? date hour minute second t.subsecond 0 = some t := by
  have hleap : (second == 60) = t.leap := by
    rcases hsecond with ⟨hleap, hlt⟩ | ⟨hleap, heq⟩
    · rw [hleap]
      exact beq_eq_false_iff_ne.2 (Nat.ne_of_lt hlt)
    · rw [hleap, heq]
      rfl
  have hnanos : (date.dayCount * 86400 + ((hour : Int) * 3600 + minute * 60 +
      ((if t.leap then 59 else second : Nat) : Int)) - 0) * 1000000000 + (t.subsecond : Int) =
        t.nanos := by
    have hsub : (t.subsecond : Int) = t.nanos % 1000000000 :=
      Int.toNat_of_nonneg (Int.emod_nonneg _ (by decide))
    have hwhole : t.seconds = t.nanos / 1000000000 := rfl
    omega
  unfold ofLocal?
  rw [if_pos ⟨hdate, hfirst, hlast, hhour, hminute, by omega, by decide, by decide⟩]
  simp only [hleap, hnanos, ofNanos?_nanos]
  exact dif_pos t.minute_ends

/-- What is written for a date and a time of day is read field by field. -/
theorem read?_fields {date : CivilDate} {hour minute second nanos : Nat} (hmonth : date.month < 100)
    (hday : date.day < 100) (hhour : hour < 100) (hminute : minute < 100) (hsecond : second < 100)
    (hnanos : nanos < 1000000000) :
    read? (String.ofList (yearText date.year ++ '-' :: decimalDigits 2 date.month ++
      '-' :: decimalDigits 2 date.day ++ ['T'] ++ decimalDigits 2 hour ++
      ':' :: decimalDigits 2 minute ++ ':' :: decimalDigits 2 second ++ fractionText nanos ++ ['Z'])) =
        ofLocal? date hour minute second nanos 0 := by
  have hmark : ∀ mark rest, isBlank mark = false → takeMark? mark (mark :: rest) = some rest := by
    intro mark rest hblank
    simp [takeMark?, trimLeft, hblank]
  have hoffset : takeOffset? (trimLeft ['Z']) = some (0, []) := rfl
  simp only [read?, String.toList_ofList, List.append_assoc, List.cons_append, List.nil_append,
    Option.bind_eq_bind, takeYear?_yearText, Option.bind_some, hmark '-' _ rfl, hmark ':' _ rfl,
    takeNumber?_decimalDigits hmonth, takeNumber?_decimalDigits hday,
    takeNumber?_decimalDigits hhour, takeNumber?_decimalDigits hminute,
    takeNumber?_decimalDigits hsecond, takeFraction?_fractionText hnanos, hoffset]
  exact if_pos rfl

theorem read?_text (t : Instant) : read? t.text = some t := by
  have hearliest := t.earliest_le
  have hlatest := t.le_latest
  unfold earliestNanos at hearliest
  unfold latestNanos at hlatest
  have hseconds : t.seconds = t.nanos / 1000000000 := rfl
  have hofDay : ((t.seconds % 86400).toNat : Int) = t.seconds % 86400 :=
    Int.toNat_of_nonneg (Int.emod_nonneg _ (by decide))
  obtain ⟨parts, hcount, hparts⟩ := CivilDate.exists_parts (t.seconds / 86400)
  obtain ⟨hfirst, hlast⟩ := CivilDate.year_of_days (t.seconds / 86400) (by omega) (by omega)
  have hdays := parts.dayCount_date
  have hexists := parts.exists_date
  simp only [text, textWith]
  generalize (t.seconds % 86400).toNat = ofDay at hofDay
  generalize CivilDate.ofDayCount (t.seconds / 86400) = date at hparts hfirst hlast
  subst hparts
  have hday : parts.date.day < 100 := by
    have hle := hexists.2.2.2
    have hlength : monthLength parts.date.year parts.date.month ≤ 31 := by
      unfold monthLength
      split <;> split <;> omega
    omega
  have hsecond : (t.leap = false ∧ ofDay % 60 + (if t.leap then 1 else 0) < 60) ∨
      t.leap = true ∧ ofDay % 60 + (if t.leap then 1 else 0) = 60 := by
    cases hleap : t.leap with
    | false => exact Or.inl ⟨rfl, Nat.mod_lt _ (by decide)⟩
    | true =>
        have hends := t.minute_ends hleap
        refine Or.inr ⟨rfl, ?_⟩
        simp only [↓reduceIte]
        omega
  have hmonth := hexists.2.1
  have hsub : t.subsecond < 1000000000 := by
    unfold subsecond
    omega
  rw [read?_fields (by omega) hday (by omega) (by omega) (by omega) hsub]
  refine ofLocal?_eq_some hexists hfirst hlast (by omega) (by omega) hsecond ?_
  rw [hdays, hcount]
  cases hleap : t.leap with
  | false =>
      simp only [Bool.false_eq_true, ↓reduceIte]
      omega
  | true =>
      have hends := t.minute_ends hleap
      simp only [↓reduceIte]
      omega

end Instant

end Courier
