import TableAccess.Calendar.Moment
/-!
# The range of dates

Every day number has an existing date, and the years of dates grow with the day numbers.  So the
dates of the supported range are those of the day numbers from its first day to its last one, and
the moments of the range are those of the microseconds of these days.

Main results:

- Theorem `day_ofDayNumber`: a date that was computed has a day of its month.
- Theorem `le_year_ofDayNumber_iff`: which day numbers have a date from a year on.
- Theorem `isValid_ofDayNumber_iff`: which day numbers have a date in the supported range.
- Theorem `Moment.le_year_ofMicroseconds_iff`: which moments have a date from a year on.
- Theorem `Moment.isValid_ofMicroseconds_iff`: which moments have one in the supported range.
-/

namespace TableAccess

namespace Date

/-! ## Days of a month -/

/-- A year that begins in March has a last day of its own only if the next year is a leap
year. -/
theorem isLeapYear_of_yearOfCycle {z : Int} (low : 0 ≤ z) (high : z < cycleDays)
    (last : (yearOfCycle z).2 = 365) : isLeapYear ((yearOfCycle z).1 + 1) = true := by
  simp only [yearOfCycle, cycleDays] at *
  simp only [isLeapYear, Bool.and_eq_true, Bool.or_eq_true, decide_eq_true_eq]
  have hc : 0 ≤ min (z / 36524) 3 ∧ min (z / 36524) 3 ≤ 3 ∧
      0 ≤ z - 36524 * min (z / 36524) 3 ∧ z - 36524 * min (z / 36524) 3 ≤ 36524 ∧
      (min (z / 36524) 3 < 3 → z - 36524 * min (z / 36524) 3 < 36524) := by
    omega
  generalize min (z / 36524) 3 = c at *
  generalize z - 36524 * c = w at *
  generalize hq : w / 1461 = q at *
  have hyear : min ((w - 1461 * q) / 365) 3 = 3 := by omega
  rw [hyear] at last ⊢
  omega

/-- The leap years of a cycle are those of every other cycle. -/
theorem isLeapYear_add_cycles (year cycles : Int) :
    isLeapYear (year + cycles * 400) = isLeapYear year := by
  have hfour : (year + cycles * 400) % 4 = year % 4 := by omega
  have hcentury : (year + cycles * 400) % 100 = year % 100 := by omega
  have hcycle : (year + cycles * 400) % 400 = year % 400 := by omega
  rw [isLeapYear, isLeapYear, hfour, hcentury, hcycle]

/-- A day of a year that begins in March is a day of its month. -/
theorem day_ofDayOfYear {year dayOfYear : Int} (low : 0 ≤ dayOfYear) (high : dayOfYear < 366)
    (last : dayOfYear = 365 → isLeapYear (year + 1) = true) :
    1 ≤ (ofDayOfYear year dayOfYear).day ∧ (ofDayOfYear year dayOfYear).day ≤
      daysInMonth (ofDayOfYear year dayOfYear).year (ofDayOfYear year dayOfYear).month := by
  simp only [ofDayOfYear]
  split
  · simp only [daysInMonth]
    split
    · omega
    · split <;> omega
  · simp only [daysInMonth]
    split
    · split
      · omega
      · rename_i hleap
        have hlast : dayOfYear ≠ 365 := fun h => hleap (last h)
        omega
    · split <;> omega

/-- A date that was computed has a day of its month. -/
theorem day_ofDayNumber (n : Int) :
    1 ≤ (ofDayNumber n).day ∧
      (ofDayNumber n).day ≤ daysInMonth (ofDayNumber n).year (ofDayNumber n).month := by
  have hlow : 0 ≤ (n + epochDays) % cycleDays := Int.emod_nonneg _ (by decide)
  have hhigh : (n + epochDays) % cycleDays < cycleDays := Int.emod_lt_of_pos _ (by decide)
  obtain ⟨_, _, hd, hd', _⟩ := yearOfCycle_eq _ hlow hhigh
  refine day_ofDayOfYear hd hd' fun hlast => ?_
  rw [Int.add_right_comm, isLeapYear_add_cycles]
  exact isLeapYear_of_yearOfCycle hlow hhigh hlast

/-- No month has more than thirty-one days. -/
theorem daysInMonth_le (year : Int) (month : Nat) : daysInMonth year month ≤ 31 := by
  unfold daysInMonth
  split
  · split <;> decide
  · split <;> decide

/-! ## Years in order -/

/-- Years that begin in March follow one another. -/
theorem yearStart_mono {a b : Int} (h : a ≤ b) : yearStart a ≤ yearStart b := by
  simp only [yearStart, cycleDays]
  omega

/-- The first of January of a year is the day 306 of the year before, which began in March. -/
theorem dayNumber_newYear (year : Int) :
    dayNumber ⟨year, 1, 1⟩ = yearStart (year - 1) + 306 := by
  simp [dayNumber]

/-- A day is not before the first one of its year, and is before the first one of the next. -/
theorem dayNumber_bounds {d : Date} (month : 1 ≤ d.month ∧ d.month ≤ 12)
    (day : 1 ≤ d.day ∧ d.day ≤ 31) :
    dayNumber ⟨d.year, 1, 1⟩ ≤ d.dayNumber ∧ d.dayNumber < dayNumber ⟨d.year + 1, 1, 1⟩ := by
  have hnext : yearStart (d.year - 1) + 365 ≤ yearStart d.year := by
    simp only [yearStart, cycleDays]
    omega
  rw [dayNumber_newYear, dayNumber_newYear, Int.add_sub_cancel]
  simp only [dayNumber]
  split
  · omega
  · omega

/-- Which day numbers have a date from a year on. -/
theorem le_year_ofDayNumber_iff (year n : Int) :
    year ≤ (ofDayNumber n).year ↔ dayNumber ⟨year, 1, 1⟩ ≤ n := by
  have hday := day_ofDayNumber n
  have hbounds := dayNumber_bounds (ofDayNumber_month n)
    ⟨hday.1, Nat.le_trans hday.2 (daysInMonth_le _ _)⟩
  rw [dayNumber_ofDayNumber] at hbounds
  simp only [dayNumber_newYear] at *
  constructor
  · intro h
    have := yearStart_mono (show year - 1 ≤ (ofDayNumber n).year - 1 by omega)
    omega
  · intro h
    refine Int.not_lt.1 fun hbefore => ?_
    have := yearStart_mono (show (ofDayNumber n).year + 1 - 1 ≤ year - 1 by omega)
    omega

/-! ## The supported range -/

/-- The first day of the supported range. -/
def firstDay : Int := dayNumber ⟨firstYear, 1, 1⟩

/-- The last day of the supported range. -/
def lastDay : Int := dayNumber ⟨lastYear, 12, 31⟩

/-- Which day numbers have a date in the supported range. -/
theorem isValid_ofDayNumber_iff (n : Int) :
    (ofDayNumber n).isValid = true ↔ firstDay ≤ n ∧ n ≤ lastDay := by
  have hday := day_ofDayNumber n
  have hmonth := ofDayNumber_month n
  have hfirst := le_year_ofDayNumber_iff firstYear n
  have hafter := le_year_ofDayNumber_iff (lastYear + 1) n
  have hlast : dayNumber ⟨lastYear + 1, 1, 1⟩ = lastDay + 1 := by decide
  have hvalid : (ofDayNumber n).isValid = true ↔
      firstYear ≤ (ofDayNumber n).year ∧ (ofDayNumber n).year ≤ lastYear := by
    simp [isValid, hday, hmonth]
  rw [hvalid, hfirst, firstDay]
  omega

end Date

/-- Which moments have a date from a year on. -/
theorem Moment.le_year_ofMicroseconds_iff (year n : Int) :
    year ≤ (ofMicroseconds n).date.year ↔
      Date.dayNumber ⟨year, 1, 1⟩ * dayMicroseconds ≤ n := by
  rw [ofMicroseconds, Date.le_year_ofDayNumber_iff]
  simp only [dayMicroseconds]
  omega

/-- Which moments have a date in the supported range. -/
theorem Moment.isValid_ofMicroseconds_iff (n : Int) :
    (ofMicroseconds n).date.isValid = true ↔
      Date.firstDay * dayMicroseconds ≤ n ∧ n < (Date.lastDay + 1) * dayMicroseconds := by
  rw [ofMicroseconds, Date.isValid_ofDayNumber_iff]
  simp only [dayMicroseconds]
  omega

end TableAccess
