import TableAccess.Calendar.Moment
import TableAccess.Text.Digits
/-!
# Writing dates and times

Dates are written year first with two-digit months and days.  A year that does not
have four digits is written with a sign.  A fraction of a second is written with three,
six or nine digits, the fewest that are exact, and left out if it is zero.

Main results:

- Theorem `writeFraction_zero`: a whole second has no fraction.
-/

namespace TableAccess

open Text

namespace Calendar

/-- A year: four digits, or a sign and at least four digits. -/
def writeYear (year : Int) : List Char :=
  if 0 ≤ year ∧ year ≤ 9999 then
    paddedDigits 4 year.natAbs
  else
    (if year < 0 then '-' else '+') :: paddedDigits 4 year.natAbs

/-- The fraction of a second, with its point. -/
def writeFraction (nanosecond : Nat) : List Char :=
  if nanosecond = 0 then []
  else if nanosecond % 1000000 = 0 then '.' :: paddedDigits 3 (nanosecond / 1000000)
  else if nanosecond % 1000 = 0 then '.' :: paddedDigits 6 (nanosecond / 1000)
  else '.' :: paddedDigits 9 nanosecond

@[simp]
theorem writeFraction_zero : writeFraction 0 = [] :=
  rfl

/-- A date. -/
def writeDate (d : Date) : List Char :=
  writeYear d.year ++ '-' :: (paddedDigits 2 d.month ++ '-' :: paddedDigits 2 d.day)

/-- A time of day. -/
def writeClock (c : Clock) : List Char :=
  paddedDigits 2 (c.second / 3600) ++ ':' :: (paddedDigits 2 (c.second / 60 % 60) ++
    ':' :: (paddedDigits 2 (c.second % 60) ++ writeFraction c.nanosecond))

/-- A moment: its date and its time of day with the letter T between them. -/
def writeMoment (m : Moment) : List Char :=
  writeDate m.date ++ 'T' :: writeClock m.clock

/-- A moment of universal time, with the offset zero. -/
def writeUniversal (m : Moment) : List Char :=
  writeMoment m ++ ['+', '0', '0', ':', '0', '0']

end Calendar

end TableAccess
