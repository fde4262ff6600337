import TableAccess.Calendar.Date
/-!
# Times of day and moments

A time of day is counted in seconds and nanoseconds; a leap second is the last second
of a minute with more than a thousand million nanoseconds.  A moment is a date with a
time of day.  The server counts both in microseconds, so finer parts are cut off.

Main results:

- Theorem `microseconds_ofMicroseconds`: every count of microseconds is that of its
  moment.
- Theorem `Clock.microseconds_ofMicroseconds`: a count within a day is that of its time
  of day.
-/

namespace TableAccess

/-! ## Times of day -/

/-- A time of day. -/
structure Clock where
  second : Nat
  nanosecond : Nat
deriving DecidableEq, Repr

namespace Clock

/-- Seconds of a day. -/
def daySeconds : Nat := 86400

/-- The time of day with the given hour, minute and second, where the second may be the
sixtieth, a leap second. -/
def ofParts (hour minute second nanosecond : Nat) : Clock :=
  if second = 60 then
    ⟨hour * 3600 + minute * 60 + 59, nanosecond + 1000000000⟩
  else
    ⟨hour * 3600 + minute * 60 + second, nanosecond⟩

/-- Nanoseconds since midnight. -/
def nanoseconds (c : Clock) : Nat :=
  c.second * 1000000000 + c.nanosecond

/-- Whole microseconds since midnight. -/
def microseconds (c : Clock) : Nat :=
  c.nanoseconds / 1000

/-- The time of day so many microseconds after midnight, days being skipped. -/
def ofMicroseconds (n : Int) : Clock :=
  let within := (n % (daySeconds * 1000000 : Nat)).toNat
  ⟨within / 1000000, within % 1000000 * 1000⟩

/-- A count within a day is that of its time of day. -/
theorem microseconds_ofMicroseconds (n : Nat) (h : n < daySeconds * 1000000) :
    (ofMicroseconds n).microseconds = n := by
  simp only [daySeconds] at h
  simp only [ofMicroseconds, microseconds, nanoseconds, daySeconds]
  omega

end Clock

/-! ## Moments -/

/-- A date with a time of day. -/
structure Moment where
  date : Date
  clock : Clock
deriving DecidableEq, Repr

namespace Moment

/-- Microseconds of a day. -/
def dayMicroseconds : Int := 86400000000

/-- Microseconds since the start of the year 2000, cut off toward it, the clock being ahead
by `offset` seconds. -/
def microsecondsAhead (offset : Int) (m : Moment) : Int :=
  let nanoseconds :=
    (m.date.dayNumber * 86400 - offset) * 1000000000 + (m.clock.nanoseconds : Int)
  nanoseconds.tdiv 1000

/-- Microseconds since the start of the year 2000, cut off toward it. -/
def microseconds (m : Moment) : Int :=
  m.microsecondsAhead 0

/-- The moment so many microseconds after the start of the year 2000. -/
def ofMicroseconds (n : Int) : Moment :=
  ⟨Date.ofDayNumber (n / dayMicroseconds), Clock.ofMicroseconds n⟩

/-- Every count of microseconds is that of its moment. -/
theorem microseconds_ofMicroseconds (n : Int) : (ofMicroseconds n).microseconds = n := by
  have hclock : ((Clock.ofMicroseconds n).nanoseconds : Int) = n % dayMicroseconds * 1000 := by
    simp only [Clock.ofMicroseconds, Clock.nanoseconds, Clock.daySeconds, dayMicroseconds]
    omega
  simp only [microseconds, microsecondsAhead, ofMicroseconds, Date.dayNumber_ofDayNumber, hclock,
    dayMicroseconds]
  have hsum : (n / 86400000000 * 86400 - 0) * 1000000000 + n % 86400000000 * 1000 = n * 1000 := by
    omega
  rw [hsum, Int.mul_tdiv_cancel _ (by decide)]

end Moment

end TableAccess
