import TableAccess.Calendar.Moment
import TableAccess.Text.Blank
import TableAccess.Text.Digits
/-!
# Reading dates and times

There are two notations.  The loose one allows blanks before every number, one-digit
months and days, and signed years; it reads dates, times of day and moments without an
offset.  The strict one has fixed widths and requires an offset from universal time.
In both a fraction of a second may have any number of digits, of which nine count, and
the sixtieth second of a minute is a leap second.

Main results:

- Theorem `expect_append`: an expected character is read wherever it stands.
-/

namespace TableAccess

open Text

namespace Calendar

/-! ## Parts -/

/-- The rest of a text after an expected character. -/
def expect (c : Char) : List Char → Option (List Char)
  | [] => none
  | d :: r => if d = c then some r else none

/-- An expected character is read wherever it stands. -/
@[simp]
theorem expect_append (c : Char) (r : List Char) : expect c (c :: r) = some r := by
  simp [expect]

/-- A number of one to `width` digits after blanks. -/
def readNumber (width : Nat) (s : List Char) : Option (Nat × List Char) :=
  let (digits, rest) := takeDigits width (dropBlanks s)
  if digits.isEmpty then none else some (digitsValue digits, rest)

/-- A number of one to `width` digits after blanks, between two bounds. -/
def readBounded (width low high : Nat) (s : List Char) : Option (Nat × List Char) := do
  let (n, rest) ← readNumber width s
  if low ≤ n ∧ n ≤ high then return (n, rest) else none

/-- A number of exactly `width` digits. -/
def readExact (width : Nat) (s : List Char) : Option (Nat × List Char) :=
  let (digits, rest) := takeDigits width s
  if digits.length = width then some (digitsValue digits, rest) else none

/-- A year after blanks: up to four digits, or a sign and any number of digits. -/
def readYear (s : List Char) : Option (Int × List Char) :=
  match dropBlanks s with
  | '-' :: r => signed true r
  | '+' :: r => signed false r
  | r => (readNumber 4 r).map fun p => ((p.1 : Int), p.2)
where
  /-- The digits of a year after its sign. -/
  signed (negative : Bool) (r : List Char) : Option (Int × List Char) :=
    let (digits, rest) := spanDigits r
    if digits.isEmpty then
      none
    else
      let n : Int := digitsValue digits
      some (if negative then -n else n, rest)

/-- An optional fraction of a second, in nanoseconds. -/
def readFraction (s : List Char) : Option (Nat × List Char) :=
  match s with
  | '.' :: r =>
    let (digits, rest) := takeDigits 9 r
    if digits.isEmpty then
      none
    else
      some (digitsValue digits * Nat.pow 10 (9 - digits.length), rest.dropWhile isDigit)
  | _ => some (0, s)

/-- A date, if it exists. -/
def existing (d : Date) : Option Date :=
  if d.isValid then some d else none

/-! ## Loose notation -/

/-- A date at the front of a text.  `between` tells whether blanks may also stand before
the hyphens. -/
def readDateParts (between : Bool) (s : List Char) : Option (Date × List Char) := do
  let gap (r : List Char) : List Char := if between then dropBlanks r else r
  let (year, r) ← readYear s
  let r ← expect '-' (gap r)
  let (month, r) ← readBounded 2 1 12 r
  let r ← expect '-' (gap r)
  let (day, r) ← readBounded 2 1 31 r
  let date ← existing ⟨year, month, day⟩
  return (date, r)

/-- A date that makes up a whole text. -/
def readDate (s : List Char) : Option Date := do
  let (date, rest) ← readDateParts true s
  if (dropBlanks rest).isEmpty then some date else none

/-- Seconds after their colon, with a fraction. -/
def readSeconds (s : List Char) : Option (Nat × Nat × List Char) := do
  let r ← expect ':' s
  let (second, r) ← readBounded 2 0 60 r
  let (nanosecond, r) ← readFraction r
  return (second, nanosecond, r)

/-- A time of day that makes up a whole text.  The seconds may be missing. -/
def readClock (s : List Char) : Option Clock := do
  let (hour, r) ← readBounded 2 0 23 s
  let r ← expect ':' (dropBlanks r)
  let (minute, r) ← readBounded 2 0 59 r
  let (second, nanosecond, rest) := (readSeconds (dropBlanks r)).getD (0, 0, r)
  if (dropBlanks rest).isEmpty then
    some (Clock.ofParts hour minute second nanosecond)
  else
    none

/-- A moment that makes up a whole text, with the given separator between the date and
the time of day. -/
def readMomentWith (separator : List Char → Option (List Char)) (s : List Char) :
    Option Moment := do
  let (date, r) ← readDateParts false s
  let r ← separator r
  let (hour, r) ← readBounded 2 0 23 r
  let r ← expect ':' r
  let (minute, r) ← readBounded 2 0 59 r
  let (second, nanosecond, rest) ← readSeconds r
  if rest.isEmpty then
    some ⟨date, Clock.ofParts hour minute second nanosecond⟩
  else
    none

/-- A moment that makes up a whole text.  Its date and time of day are separated by the
letter T, or by any number of blanks. -/
def readMoment (s : List Char) : Option Moment :=
  (readMomentWith (expect 'T') s).or (readMomentWith (fun r => some (dropBlanks r)) s)

/-! ## Strict notation -/

/-- An offset from universal time in seconds: the letter Z, or a sign, two digits of hours,
a colon and two digits of minutes. -/
def readOffset (s : List Char) : Option (Int × List Char) :=
  match s with
  | 'Z' :: r => some (0, r)
  | 'z' :: r => some (0, r)
  | '+' :: r => parts 1 r
  | '-' :: r => parts (-1) r
  | '−' :: r => parts (-1) r
  | _ => none
where
  /-- The hours and minutes of an offset with a sign. -/
  parts (sign : Int) (r : List Char) : Option (Int × List Char) := do
    let (hours, r) ← readExact 2 r
    let r ← expect ':' r
    let (minutes, r) ← readExact 2 r
    if hours ≤ 23 ∧ minutes ≤ 59 then
      return (sign * ((hours * 3600 + minutes * 60 : Nat) : Int), r)
    else
      none

/-- A moment and the offset of its clock from universal time, which make up a whole
text. -/
def readOffsetMoment (s : List Char) : Option (Moment × Int) := do
  let (year, r) ← readExact 4 s
  let r ← expect '-' r
  let (month, r) ← readExact 2 r
  let r ← expect '-' r
  let (day, r) ← readExact 2 r
  let date ← existing ⟨year, month, day⟩
  let r ← match r with
    | 'T' :: r => some r
    | 't' :: r => some r
    | ' ' :: r => some r
    | _ => none
  let (hour, r) ← readExact 2 r
  let r ← expect ':' r
  let (minute, r) ← readExact 2 r
  let r ← expect ':' r
  let (second, r) ← readExact 2 r
  let (nanosecond, r) ← readFraction r
  let (offset, rest) ← readOffset r
  if hour ≤ 23 ∧ minute ≤ 59 ∧ second ≤ 60 ∧ rest.isEmpty then
    some (⟨date, Clock.ofParts hour minute second nanosecond⟩, offset)
  else
    none

end Calendar

end TableAccess
