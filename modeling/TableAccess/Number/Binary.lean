import TableAccess.Text.Octets
/-!
# Binary floating-point numbers

A number is held as its bits: a sign, a field of exponent bits and the fraction.
All arithmetic is done on exact quotients of natural numbers and rounded once, to
the nearest number of the format, a tie going to the number with the even last
bit.  So reading decimal text, converting integers, narrowing, widening and the
products needed by the document reader share one rounding function.

Main results:

- Theorem `roundDiv_le` and `le_roundDiv`: rounding a quotient stays within half
  a unit of it.
- Theorem `roundDiv_of_dvd`: a whole quotient is kept.
- Theorem `equal_self_iff`: a number equals itself unless it is no number.
-/

namespace TableAccess

/-! ## Rounding quotients -/

/-- The natural number nearest to `n / d`; of two equally near ones, the even one. -/
def roundDiv (n d : Nat) : Nat :=
  if d < 2 * (n % d) ∨ (d = 2 * (n % d) ∧ n / d % 2 = 1) then n / d + 1 else n / d

/-- A whole quotient is kept. -/
theorem roundDiv_of_dvd (q : Nat) {d : Nat} (hd : 0 < d) : roundDiv (q * d) d = q := by
  simp [roundDiv, Nat.mul_mod_left, Nat.mul_div_cancel _ hd]
  omega

/-- The rounded quotient exceeds the quotient by at most half a unit. -/
theorem roundDiv_le (n : Nat) {d : Nat} (hd : 0 < d) : 2 * roundDiv n d * d ≤ 2 * n + d := by
  have h := Nat.div_add_mod n d
  have hr := Nat.mod_lt n hd
  unfold roundDiv
  split
  · have : 2 * (n / d + 1) * d = 2 * (d * (n / d)) + 2 * d := by
      rw [Nat.mul_assoc, Nat.add_mul, Nat.mul_comm (n / d) d]
      omega
    omega
  · have : 2 * (n / d) * d = 2 * (d * (n / d)) := by
      rw [Nat.mul_assoc, Nat.mul_comm (n / d) d]
    omega

/-- The rounded quotient falls short of the quotient by at most half a unit. -/
theorem le_roundDiv (n : Nat) {d : Nat} (hd : 0 < d) : 2 * n ≤ 2 * roundDiv n d * d + d := by
  have h := Nat.div_add_mod n d
  have hr := Nat.mod_lt n hd
  unfold roundDiv
  split
  · have : 2 * (n / d + 1) * d = 2 * (d * (n / d)) + 2 * d := by
      rw [Nat.mul_assoc, Nat.add_mul, Nat.mul_comm (n / d) d]
      omega
    omega
  · have : 2 * (n / d) * d = 2 * (d * (n / d)) := by
      rw [Nat.mul_assoc, Nat.mul_comm (n / d) d]
    omega

/-! ## Formats -/

/-- A binary interchange format with so many fraction bits and exponent bits. -/
structure Format where
  fractionBits : Nat
  exponentBits : Nat
deriving DecidableEq, Repr

namespace Format

/-- The format of four octets. -/
def binary32 : Format := ⟨23, 8⟩

/-- The format of eight octets. -/
def binary64 : Format := ⟨52, 11⟩

/-- The number of bits besides the sign. -/
def magnitudeBits (f : Format) : Nat :=
  f.exponentBits + f.fractionBits

/-- The number of bits of a number. -/
def width (f : Format) : Nat :=
  f.magnitudeBits + 1

/-- The number of octets of a number. -/
def octets (f : Format) : Nat :=
  f.width / 8

/-- The exponent of the last place of the least numbers: they are multiples of two to
this power. -/
def leastExponent (f : Format) : Int :=
  2 - (Nat.pow 2 (f.exponentBits - 1) : Nat) - (f.fractionBits : Int)

/-- The magnitude bits of infinity. -/
def infinityBits (f : Format) : Nat :=
  (Nat.pow 2 f.exponentBits - 1) * Nat.pow 2 f.fractionBits

/-- The magnitude bits of the usual value that is no number. -/
def nanBits (f : Format) : Nat :=
  f.infinityBits + Nat.pow 2 (f.fractionBits - 1)

end Format

/-! ## Numbers -/

/-- A floating-point number of a format. -/
structure Binary (f : Format) where
  bits : BitVec f.width
deriving DecidableEq

/-- A floating-point number of four octets. -/
abbrev Binary32 := Binary .binary32

/-- A floating-point number of eight octets. -/
abbrev Binary64 := Binary .binary64

namespace Binary

variable {f g : Format}

instance : Inhabited (Binary f) := ⟨⟨0⟩⟩

/-- The number with the given sign and magnitude bits. -/
def ofMagnitude (f : Format) (negative : Bool) (magnitude : Nat) : Binary f :=
  ⟨BitVec.ofNat f.width (if negative then magnitude + Nat.pow 2 f.magnitudeBits else magnitude)⟩

/-- The bits besides the sign. -/
def magnitude (x : Binary f) : Nat :=
  x.bits.toNat % Nat.pow 2 f.magnitudeBits

/-- Whether the sign bit is set. -/
def negative (x : Binary f) : Bool :=
  Nat.pow 2 f.magnitudeBits ≤ x.bits.toNat

/-- Whether a number is finite. -/
def isFinite (x : Binary f) : Bool :=
  x.magnitude < f.infinityBits

/-- Whether the value is no number. -/
def isNaN (x : Binary f) : Bool :=
  f.infinityBits < x.magnitude

/-- Whether a number is zero, of either sign. -/
def isZero (x : Binary f) : Bool :=
  x.magnitude == 0

/-- The exponent bits. -/
def exponentField (x : Binary f) : Nat :=
  x.magnitude / Nat.pow 2 f.fractionBits

/-- The whole number that, times two to the power `exponent`, is the magnitude of a
finite number. -/
def significand (x : Binary f) : Nat :=
  if x.exponentField = 0 then
    x.magnitude
  else
    x.magnitude % Nat.pow 2 f.fractionBits + Nat.pow 2 f.fractionBits

/-- The exponent of the last place of a number. -/
def exponent (x : Binary f) : Int :=
  f.leastExponent + (x.exponentField - 1 : Nat)

/-- The number with the opposite sign. -/
def neg (x : Binary f) : Binary f :=
  ofMagnitude f (!x.negative) x.magnitude

/-- Zero with a sign. -/
def zero (f : Format) (negative : Bool) : Binary f :=
  ofMagnitude f negative 0

/-- Infinity with a sign. -/
def infinity (f : Format) (negative : Bool) : Binary f :=
  ofMagnitude f negative f.infinityBits

/-- The usual value that is no number, with a sign. -/
def nan (f : Format) (negative : Bool) : Binary f :=
  ofMagnitude f negative f.nanBits

/-- Equality of numbers: the two zeros are equal, and what is no number equals
nothing. -/
def equal (x y : Binary f) : Bool :=
  !x.isNaN && !y.isNaN && (x.bits == y.bits || (x.isZero && y.isZero))

/-- A number equals itself unless it is no number. -/
theorem equal_self_iff (x : Binary f) : x.equal x = true ↔ x.isNaN = false := by
  simp [equal]

/-! ## Rounding to a format -/

/-- The fraction `n / d` divided by two to the power `e`, as numerator and
denominator. -/
def scaleDown (n d : Nat) (e : Int) : Nat × Nat :=
  if 0 ≤ e then (n, d * Nat.pow 2 e.toNat) else (n * Nat.pow 2 (-e).toNat, d)

/-- The exponent of the last place of the number of the format nearest to `n / d`. -/
def lastPlace (f : Format) (n d : Nat) : Int :=
  let guess : Int := (n.log2 : Int) - (d.log2 : Int) - (f.fractionBits : Int)
  let (a, b) := scaleDown n d guess
  let exponent := if b * Nat.pow 2 f.fractionBits ≤ a then guess else guess - 1
  max exponent f.leastExponent

/-- The magnitude bits of the number of the format nearest to `n / d`. -/
def roundMagnitude (f : Format) (n d : Nat) : Nat :=
  if n = 0 then
    0
  else
    let e := lastPlace f n d
    let (a, b) := scaleDown n d e
    min (roundDiv a b + (e - f.leastExponent).toNat * Nat.pow 2 f.fractionBits) f.infinityBits

/-- The number of the format nearest to `n / d`, with a sign. -/
def ofRatio (f : Format) (negative : Bool) (n d : Nat) : Binary f :=
  ofMagnitude f negative (roundMagnitude f n d)

/-- The magnitude of a finite number as a quotient. -/
def toRatio (x : Binary f) : Nat × Nat :=
  scaleDown x.significand 1 (-x.exponent)

/-- The number of the format nearest to an integer. -/
def ofInt (f : Format) (i : Int) : Binary f :=
  ofRatio f (i < 0) i.natAbs 1

/-- The number of the format `g` nearest to a number.  A value that is no number keeps
its sign and the leading bits of its fraction. -/
def convert (g : Format) (x : Binary f) : Binary g :=
  if x.isNaN then
    let fraction :=
      x.magnitude % Nat.pow 2 f.fractionBits * Nat.pow 2 g.fractionBits / Nat.pow 2 f.fractionBits
    ofMagnitude g x.negative (g.nanBits ||| fraction)
  else if x.isFinite then
    let (n, d) := x.toRatio
    ofRatio g x.negative n d
  else
    infinity g x.negative

/-- The product of the magnitudes of two finite numbers. -/
def mulMagnitude (x y : Binary f) : Binary f :=
  let (a, b) := x.toRatio
  let (c, d) := y.toRatio
  ofRatio f false (a * c) (b * d)

/-- The quotient of the magnitudes of two finite numbers, the second not zero. -/
def divMagnitude (x y : Binary f) : Binary f :=
  let (a, b) := x.toRatio
  let (c, d) := y.toRatio
  ofRatio f false (a * d) (b * c)

end Binary

end TableAccess
