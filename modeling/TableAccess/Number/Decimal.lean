import TableAccess.Number.Reading
import TableAccess.Text.Integer
/-!
# Decimals

A decimal is a whole coefficient below two to the power 96 with at most 28 places
after the point.  Digits beyond that are rounded, a half away from zero.  Decimals
are what text and floating-point numbers become before they are sent as exact
numerics.

Main results:

- Theorems `roundOnce_le` and `dropDigits_le`: dropping digits with rounding stays
  within half a unit of the last place kept.
- Theorem `ofNat_coefficient`: a natural number below the limit is kept exactly.
-/

namespace TableAccess

/-- A decimal: `coefficient` divided by ten to the power `scale`, with a sign. -/
structure Decimal where
  negative : Bool
  coefficient : Nat
  scale : Nat
deriving DecidableEq, Repr

namespace Decimal

open Text

/-- Coefficients are below this number. -/
def limit : Nat := Nat.pow 2 96

/-- The most places after the point. -/
def mostPlaces : Nat := 28

/-- The decimal of an integer. -/
def ofInt (i : Int) : Decimal :=
  ⟨i < 0, i.natAbs, 0⟩

/-- A natural number is kept exactly. -/
@[simp]
theorem ofNat_coefficient (n : Nat) : (ofInt n).coefficient = n :=
  Int.natAbs_natCast n

/-! ## Rounding -/

/-- Divide by ten and round, a half up. -/
def roundOnce (n : Nat) : Nat :=
  if 5 ≤ n % 10 then n / 10 + 1 else n / 10

/-- Dropping one digit with rounding stays within half a unit of the last place kept. -/
theorem roundOnce_le (n : Nat) : n ≤ 10 * roundOnce n + 4 ∧ 10 * roundOnce n ≤ n + 5 := by
  unfold roundOnce
  split <;> omega

/-- Drop the last digits of a number, so many of them; the first of these rounds. -/
def dropDigits : Nat → Nat → Nat
  | 0, n => n
  | k + 1, n => roundOnce (n / Nat.pow 10 k)

/-- Dropping digits with rounding stays within half a unit of the last place kept. -/
theorem dropDigits_le (k n : Nat) :
    2 * n ≤ Nat.pow 10 k * (2 * dropDigits k n + 1) ∧
      Nat.pow 10 k * (2 * dropDigits k n) ≤ 2 * n + Nat.pow 10 k := by
  cases k with
  | zero =>
    have one : Nat.pow 10 0 = 1 := rfl
    rw [one, dropDigits]
    omega
  | succ k =>
    obtain ⟨above, below⟩ := roundOnce_le (n / Nat.pow 10 k)
    have parts : Nat.pow 10 k * (n / Nat.pow 10 k) + n % Nat.pow 10 k = n :=
      Nat.div_add_mod n (Nat.pow 10 k)
    have rest : n % Nat.pow 10 k < Nat.pow 10 k := Nat.mod_lt n (Nat.pow_pos (by decide))
    have scaledAbove := Nat.mul_le_mul_left (Nat.pow 10 k) above
    have scaledBelow := Nat.mul_le_mul_left (Nat.pow 10 k) below
    have next : Nat.pow 10 (k + 1) = Nat.pow 10 k * 10 := rfl
    rw [next, dropDigits]
    grind

/-! ## Positional text -/

/-- Round at a digit for which there is no room.  If rounding up leaves the range, one
place is given up for it. -/
def roundAt (negative : Bool) (coefficient scale digit : Nat) : Option Decimal :=
  if digit < 5 then
    some ⟨negative, coefficient, scale⟩
  else if coefficient + 1 < limit then
    some ⟨negative, coefficient + 1, scale⟩
  else if scale = 0 then
    none
  else
    some ⟨negative, (coefficient + 5) / 10, scale - 1⟩

/-- Coefficients below this number are gathered in one word of 64 bits; the last digit of
a larger one is added in a wider word. -/
def narrow : Nat := 10 * ((Nat.pow 2 64 - 1) / 10 - 255)

/-- Whether a text holds only digits and the separators that may stand among them. -/
def isDigitRun (s : List Char) : Bool :=
  s.all fun c => (digitValue? c).isSome || c == '_'

/-- Read the digits of a decimal, of which at most one point may be part.  `started`
tells whether a digit has been read, `point` whether the point has.  The first digit
after the point for which there is no room rounds, and no digit after it counts.  A
separator after the last place counts as the digit zero if the coefficient is narrow, and
is passed over if it is not. -/
def readDigits (negative : Bool) : (point started : Bool) → (coefficient scale : Nat) →
    List Char → Option Decimal
  | _, started, coefficient, scale, [] =>
    if started then some ⟨negative, coefficient, scale⟩ else none
  | point, started, coefficient, scale, c :: r =>
    match digitValue? c with
    | some digit =>
      let longer := 10 * coefficient + digit
      if longer < limit ∧ ¬(point ∧ mostPlaces ≤ scale) then
        readDigits negative point true longer (if point then scale + 1 else 0) r
      else if point ∧ isDigitRun r then
        roundAt negative coefficient scale digit
      else
        none
    | none =>
      if c = '.' && !point then
        readDigits negative true started coefficient scale r
      else if c = '_' && point && mostPlaces ≤ scale && coefficient < narrow then
        if isDigitRun r then roundAt negative coefficient scale 0 else none
      else if c = '_' && started then
        readDigits negative point started coefficient scale r
      else
        none

/-- Read a decimal without an exponent. -/
def readPositional (s : List Char) : Option Decimal :=
  let (negative, digits) := Binary.takeSign s
  readDigits negative false false 0 0 digits

/-! ## Text with an exponent -/

/-- A decimal times ten to the power `n`; none if it is out of range. -/
def scaleUp (d : Decimal) (n : Nat) : Option Decimal :=
  if n ≤ d.scale then
    some { d with scale := d.scale - n }
  else
    let coefficient := d.coefficient * Nat.pow 10 (n - d.scale)
    if coefficient < limit then some ⟨d.negative, coefficient, 0⟩ else none

/-- A decimal divided by ten to the power `n`.  Digits for which there is no place are
dropped. -/
def scaleDown (d : Decimal) (n : Nat) : Decimal :=
  if d.scale + n ≤ mostPlaces then
    { d with scale := d.scale + n }
  else
    ⟨d.negative, dropDigits (d.scale + n - mostPlaces) d.coefficient, mostPlaces⟩

/-- Read an exponent of ten: whether it is negative, and its magnitude. -/
def readExponent (s : List Char) : Option (Bool × Nat) :=
  match s with
  | '-' :: r => (readInteger .nat32 r).toOption.map fun n => (true, n.toNat)
  | s => (readInteger .nat32 s).toOption.map fun n => (false, n.toNat)

/-- Read a decimal with an exponent, which starts at the first letter `e`.  The exponent
is at most the number of places that a decimal can have, in either direction. -/
def readScientific (s : List Char) : Option Decimal :=
  let isMark (c : Char) : Bool := c == 'e' || c == 'E'
  match s.dropWhile (!isMark ·) with
  | [] => none
  | _ :: exponent => do
    let base ← readPositional (s.takeWhile (!isMark ·))
    let (negative, n) ← readExponent exponent
    if mostPlaces < n then
      none
    else if negative then
      some (base.scaleDown n)
    else
      base.scaleUp n

/-- Read a decimal. -/
def read (s : List Char) : Option Decimal :=
  (readPositional s).or (readScientific s)

/-! ## From floating-point numbers -/

/-- A coefficient together with the exponent of ten that goes with it. -/
structure Scaled where
  coefficient : Nat
  exponent : Int
deriving DecidableEq, Repr

/-- Divide by two so many times: an even coefficient is halved; an odd one is multiplied
by five and divided by ten, or halved with loss if there is no room. -/
def halve : Nat → Scaled → Scaled
  | 0, x => x
  | n + 1, x =>
    if x.coefficient % 2 = 0 then
      halve n ⟨x.coefficient / 2, x.exponent + 1⟩
    else if x.coefficient * 5 < limit then
      halve n { x with coefficient := x.coefficient * 5 }
    else
      halve n ⟨x.coefficient / 2, x.exponent + 1⟩

/-- Drop so many digits one by one, rounding each time, until nothing is left. -/
def dropPlaces : Nat → Scaled → Scaled
  | 0, x => x
  | n + 1, x =>
    if x.coefficient / 10 = 0 then
      ⟨0, 0⟩
    else
      dropPlaces n ⟨roundOnce x.coefficient, x.exponent + 1⟩

/-- Coefficients from this number on have more digits than a floating-point number of
eight octets warrants. -/
def trusted : Nat := Nat.pow 2 52

/-- Drop places while the coefficient has more digits than are warranted. -/
def dropUntrusted : Nat → Nat → Nat × Nat
  | 0, coefficient => (coefficient, 0)
  | places + 1, coefficient =>
    if trusted ≤ coefficient then
      dropUntrusted places (roundOnce coefficient)
    else
      (coefficient, places + 1)

/-- Drop places that hold a zero. -/
def dropZeros : Nat → Nat → Nat × Nat
  | 0, coefficient => (coefficient, 0)
  | places + 1, coefficient =>
    if coefficient % 10 = 0 then dropZeros places (coefficient / 10) else (coefficient, places + 1)

/-- The decimal for a finite floating-point number; none if it is out of range.  A
multiple of a power of two is kept exactly.  Otherwise the power of two by which the
number divides is first traded for a power of ten, and the result is shortened to about
the digits that the number warrants. -/
def ofBinary (x : Binary64) : Option Decimal :=
  if !x.isFinite then
    none
  else if x.isZero then
    some ⟨x.negative, 0, 0⟩
  else if 0 < x.exponent then
    let coefficient := x.significand * Nat.pow 2 x.exponent.toNat
    if coefficient < limit then some ⟨x.negative, coefficient, 0⟩ else none
  else
    let traded := halve (-x.exponent).toNat ⟨x.significand, x.exponent⟩
    let shortened := dropPlaces (-traded.exponent - mostPlaces).toNat traded
    let (coefficient, places) :=
      dropUntrusted (-shortened.exponent).toNat shortened.coefficient
    let (coefficient, places) := dropZeros places coefficient
    some ⟨x.negative, coefficient, places⟩

end Decimal

end TableAccess
