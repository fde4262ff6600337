/-!
# Calendar dates

Dates of the proleptic Gregorian calendar, and their numbers counted in days from the
first of January 2000.  The year is taken to begin in March, so that the leap day is
its last day and a month's first day is a linear function of the month.

Main results:

- Theorem `dayNumber_ofDayNumber`: every day number is that of its date.
- Theorem `ofDayNumber_month`: a date that was computed has a month of the calendar.
-/

namespace TableAccess

/-- A date: year (zero and negative years included), month from one, day from one. -/
structure Date where
  year : Int
  month : Nat
  day : Nat
deriving DecidableEq, Repr

namespace Date

/-! ## The calendar -/

/-- Whether a year has a leap day. -/
def isLeapYear (year : Int) : Bool :=
  year % 4 = 0 && (year % 100 ≠ 0 || year % 400 = 0)

/-- The number of days of a month. -/
def daysInMonth (year : Int) (month : Nat) : Nat :=
  if month = 2 then
    if isLeapYear year then 29 else 28
  else if month = 4 ∨ month = 6 ∨ month = 9 ∨ month = 11 then 30
  else 31

/-- The first year of the supported range. -/
def firstYear : Int := -262143

/-- The last year of the supported range. -/
def lastYear : Int := 262142

/-- Whether a date exists and lies in the supported range. -/
def isValid (d : Date) : Bool :=
  firstYear ≤ d.year && d.year ≤ lastYear && 1 ≤ d.month && d.month ≤ 12 &&
    1 ≤ d.day && d.day ≤ daysInMonth d.year d.month

/-! ## Day numbers -/

/-- Days from the first of March of the year zero to the first of January 2000. -/
def epochDays : Int := 730425

/-- Days of four hundred years. -/
def cycleDays : Int := 146097

/-- The first day of a year that begins in March, counted from the epoch. -/
def yearStart (year : Int) : Int :=
  year / 400 * cycleDays + (year % 400 * 365 + year % 400 / 4 - year % 400 / 100) - epochDays

/-- The number of a date, counted in days from the first of January 2000. -/
def dayNumber (d : Date) : Int :=
  let year := if d.month ≤ 2 then d.year - 1 else d.year
  let month : Int := if d.month ≤ 2 then d.month + 9 else d.month - 3
  yearStart year + ((153 * month + 2) / 5 + d.day - 1)

/-- The year and the day of a four-hundred-year cycle, both from zero.  The last century
of a cycle has one day more than the others, and so has the last year of four. -/
def yearOfCycle (dayOfCycle : Int) : Int × Int :=
  let century := min (dayOfCycle / 36524) 3
  let dayOfCentury := dayOfCycle - 36524 * century
  let four := dayOfCentury / 1461
  let dayOfFour := dayOfCentury - 1461 * four
  let year := min (dayOfFour / 365) 3
  (100 * century + 4 * four + year, dayOfFour - 365 * year)

/-- The date of a day, counted from zero, of a year that begins in March. -/
def ofDayOfYear (year dayOfYear : Int) : Date :=
  let month := (5 * dayOfYear + 2) / 153
  let day := (dayOfYear - (153 * month + 2) / 5 + 1).toNat
  if month < 10 then
    ⟨year, (month + 3).toNat, day⟩
  else
    ⟨year + 1, (month - 9).toNat, day⟩

/-- The date with a given number. -/
def ofDayNumber (n : Int) : Date :=
  let days := n + epochDays
  let year := yearOfCycle (days % cycleDays)
  ofDayOfYear (year.1 + days / cycleDays * 400) year.2

/-! ## Day numbers and dates agree -/

/-- A day of the cycle lies in one of its years, which begins so many days after the
cycle. -/
theorem yearOfCycle_eq (z : Int) (hlow : 0 ≤ z) (hhigh : z < cycleDays) :
    0 ≤ (yearOfCycle z).1 ∧ (yearOfCycle z).1 < 400 ∧
      0 ≤ (yearOfCycle z).2 ∧ (yearOfCycle z).2 < 366 ∧
      (yearOfCycle z).1 * 365 + (yearOfCycle z).1 / 4 - (yearOfCycle z).1 / 100 +
        (yearOfCycle z).2 = z := by
  simp only [yearOfCycle, cycleDays] at *
  have hc : 0 ≤ min (z / 36524) 3 ∧ min (z / 36524) 3 ≤ 3 ∧
      0 ≤ z - 36524 * min (z / 36524) 3 ∧ z - 36524 * min (z / 36524) 3 ≤ 36524 := by
    omega
  generalize min (z / 36524) 3 = c at *
  generalize hw : z - 36524 * c = w at *
  have hq : 0 ≤ w / 1461 ∧ w / 1461 ≤ 24 ∧ 0 ≤ w - 1461 * (w / 1461) ∧
      w - 1461 * (w / 1461) ≤ 1460 := by
    omega
  generalize w / 1461 = q at *
  generalize hv : w - 1461 * q = v at *
  have hy : 0 ≤ min (v / 365) 3 ∧ min (v / 365) 3 ≤ 3 ∧ 0 ≤ v - 365 * min (v / 365) 3 ∧
      v - 365 * min (v / 365) 3 ≤ 365 := by
    omega
  generalize min (v / 365) 3 = y at *
  have hfour : (100 * c + 4 * q + y) / 4 = 25 * c + q := by omega
  have hcentury : (100 * c + 4 * q + y) / 100 = c := by omega
  omega

/-- The day of a year that begins in March has the number counted from the year's start. -/
theorem dayNumber_ofDayOfYear (year dayOfYear : Int) (hlow : 0 ≤ dayOfYear)
    (hhigh : dayOfYear < 366) :
    (ofDayOfYear year dayOfYear).dayNumber = yearStart year + dayOfYear := by
  simp only [ofDayOfYear]
  split
  · have hm : ¬ ((5 * dayOfYear + 2) / 153 + 3).toNat ≤ 2 := by omega
    simp only [dayNumber, hm, if_false]
    omega
  · have hm : ((5 * dayOfYear + 2) / 153 - 9).toNat ≤ 2 := by omega
    simp only [dayNumber, hm, if_true, Int.add_sub_cancel]
    omega

/-- Every day number is that of its date. -/
theorem dayNumber_ofDayNumber (n : Int) : (ofDayNumber n).dayNumber = n := by
  have hlow : 0 ≤ (n + epochDays) % cycleDays := Int.emod_nonneg _ (by decide)
  have hhigh : (n + epochDays) % cycleDays < cycleDays := Int.emod_lt_of_pos _ (by decide)
  have hdiv := Int.emod_add_mul_ediv (n + epochDays) cycleDays
  obtain ⟨hy, hy', hd, hd', hsum⟩ := yearOfCycle_eq _ hlow hhigh
  simp only [ofDayNumber]
  rw [dayNumber_ofDayOfYear _ _ hd hd', yearStart]
  generalize (yearOfCycle ((n + epochDays) % cycleDays)).1 = y at *
  generalize (yearOfCycle ((n + epochDays) % cycleDays)).2 = d at *
  generalize (n + epochDays) % cycleDays = r at *
  have hcycle : (y + (n + epochDays) / cycleDays * 400) / 400 =
      (n + epochDays) / cycleDays := by
    omega
  have hyear : (y + (n + epochDays) / cycleDays * 400) % 400 = y := by omega
  rw [hcycle, hyear]
  simp only [cycleDays, epochDays] at *
  omega

/-- A date that was computed has a month of the calendar. -/
theorem ofDayNumber_month (n : Int) :
    1 ≤ (ofDayNumber n).month ∧ (ofDayNumber n).month ≤ 12 := by
  have hlow : 0 ≤ (n + epochDays) % cycleDays := Int.emod_nonneg _ (by decide)
  have hhigh : (n + epochDays) % cycleDays < cycleDays := Int.emod_lt_of_pos _ (by decide)
  obtain ⟨_, _, hd, hd', _⟩ := yearOfCycle_eq _ hlow hhigh
  simp only [ofDayNumber, ofDayOfYear]
  split <;> simp only <;> omega

end Date

end TableAccess
