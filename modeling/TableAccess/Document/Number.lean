import TableAccess.Document
import TableAccess.Number.Reading
/-!
# Numbers in documents

A number in a document is read in one pass.  Its digits are gathered into a
coefficient below two to the power 64 while they fit; further digits of the whole
part raise the exponent, further digits of the fraction are skipped.  A number
without point and exponent whose value fits 64 bits stays whole; every other number
is the coefficient as a binary number, multiplied or divided by a binary power of
ten.  That last step rounds once more, so the result may differ in its last place from
the number nearest to the text.

Main results:

- Theorem `gather_count`: gathering digits only ever consumes them.
-/

namespace TableAccess.Document

open Text

/-! ## Powers of ten -/

/-- Coefficients are below this number. -/
def coefficientLimit : Nat := Nat.pow 2 64

/-- The greatest exponent of ten whose power is finite. -/
def greatestPower : Nat := 308

/-- The largest exponent that is told apart from an overflow. -/
def greatestExponent : Nat := Nat.pow 2 31 - 1

/-- The binary number nearest to a power of ten. -/
def powerOfTen (n : Nat) : Binary64 :=
  Binary.ofRatio .binary64 false (Nat.pow 10 n) 1

/-- A binary number times ten to the power `e`, in at most `fuel` steps down; none if it
overflows.  Very small numbers are divided by the greatest power first. -/
def applyExponent : Nat → Binary64 → Int → Option Binary64
  | fuel, x, e =>
    if e.natAbs ≤ greatestPower then
      let p := powerOfTen e.natAbs
      if 0 ≤ e then
        let y := x.mulMagnitude p
        if y.isFinite then some y else none
      else
        some (x.divMagnitude p)
    else if x.isZero then
      some x
    else if 0 ≤ e then
      none
    else
      match fuel with
      | 0 => some (Binary.zero .binary64 false)
      | fuel + 1 => applyExponent fuel (x.divMagnitude (powerOfTen greatestPower)) (e + greatestPower)

/-- The number with a sign, a coefficient and an exponent of ten.  A coefficient vanishes
after two divisions by the greatest power. -/
def ofParts (negative : Bool) (coefficient : Nat) (e : Int) : Option Document :=
  (applyExponent 2 (Binary.ofRatio .binary64 false coefficient 1) e).map fun x =>
    .float (if negative then x.neg else x)

/-! ## Gathering digits -/

/-- Digits gathered into a coefficient: the coefficient, the number of digits gathered, and
what is left, which starts with a digit only if there was no room for it. -/
def gather : (coefficient count : Nat) → List Char → Nat × Nat × List Char
  | coefficient, count, [] => (coefficient, count, [])
  | coefficient, count, c :: r =>
    match digitValue? c with
    | some d =>
      if 10 * coefficient + d < coefficientLimit then
        gather (10 * coefficient + d) (count + 1) r
      else
        (coefficient, count, c :: r)
    | none => (coefficient, count, c :: r)

/-- The digits gathered and what is left add up. -/
theorem gather_count (coefficient count : Nat) (s : List Char) :
    (gather coefficient count s).2.1 + (gather coefficient count s).2.2.length =
      count + s.length := by
  induction s generalizing coefficient count with
  | nil => rfl
  | cons c r ih =>
    unfold gather
    split
    · split
      · rw [ih]
        simp only [List.length_cons]
        omega
      · rfl
    · rfl

/-! ## The grammar -/

/-- Read the digits of an exponent after its mark, and finish the number. -/
def readExponent (negative : Bool) (coefficient : Nat) (e : Int) (s : List Char) :
    Option (Document × List Char) :=
  let (down, s) := Binary.takeSign s
  let (digits, rest) := spanDigits s
  if digits.isEmpty then
    none
  else
    let n := digitsValue digits
    if greatestExponent < n then
      if coefficient ≠ 0 ∧ !down then
        none
      else
        some (.float (Binary.zero .binary64 negative), rest)
    else
      (ofParts negative coefficient (if down then e - n else e + n)).map (·, rest)

/-- Finish a number that is not whole: with an exponent if one follows. -/
def finish (negative : Bool) (coefficient : Nat) (e : Int) (s : List Char) :
    Option (Document × List Char) :=
  match s with
  | 'e' :: r => readExponent negative coefficient e r
  | 'E' :: r => readExponent negative coefficient e r
  | _ => (ofParts negative coefficient e).map (·, s)

/-- Read the digits after a decimal point, and finish the number. -/
def readFraction (negative : Bool) (coefficient : Nat) (e : Int) (s : List Char) :
    Option (Document × List Char) :=
  let (longer, count, rest) := gather coefficient 0 s
  let (skipped, rest) := spanDigits rest
  if count = 0 ∧ skipped.isEmpty then
    none
  else
    finish negative longer (e - count) rest

/-- A whole number, if it fits; zero with a minus sign and numbers below the least integer
become binary. -/
def ofWhole (negative : Bool) (coefficient : Nat) : Document :=
  if !negative then
    .int coefficient
  else if coefficient = 0 ∨ Nat.pow 2 63 < coefficient then
    .float (Binary.ofRatio .binary64 true coefficient 1)
  else
    .int (-coefficient)

/-- Read a number after its sign. -/
def readUnsigned (negative : Bool) (s : List Char) : Option (Document × List Char) :=
  let (coefficient, count, rest) := gather 0 0 s
  let (skipped, rest) := spanDigits rest
  let leadingZero := s.head? == some '0' && 1 < count
  if count = 0 || leadingZero then
    none
  else
    match rest with
    | '.' :: r => readFraction negative coefficient skipped.length r
    | _ =>
      if skipped.isEmpty && !(rest.head? == some 'e' || rest.head? == some 'E') then
        some (ofWhole negative coefficient, rest)
      else
        finish negative coefficient skipped.length rest

/-- Read a number; a plus sign is not allowed. -/
def readNumber : List Char → Option (Document × List Char)
  | '-' :: r => readUnsigned true r
  | s => readUnsigned false s

end TableAccess.Document
