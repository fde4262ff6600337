import TableAccess.Number.Binary
import TableAccess.Text.Digits
/-!
# Reading floating-point text

A number text is an optional sign followed by a word for infinity, the word for
what is no number, or a decimal: digits with at most one point among them, at
least one digit, and an optional exponent.  The decimal is rounded once, directly
to the format asked for.

Main results:

- Theorem `ofDecimal_zero`: digits that are all zero give a zero of the sign read.
-/

namespace TableAccess.Binary

open Text

/-! ## Decimals -/

/-- Decimal exponents beyond this bound, either way, leave every format: the digits
count as infinity or as zero. -/
def farExponent : Int := 400

/-- The number of the format nearest to `coefficient` times ten to the power `exponent`. -/
def ofDecimal (f : Format) (negative : Bool) (coefficient : Nat) (exponent : Int) : Binary f :=
  if coefficient = 0 then
    zero f negative
  else
    let size := exponent + ((natDigits coefficient).length : Int)
    if farExponent < size then
      infinity f negative
    else if size < -farExponent then
      zero f negative
    else if 0 ≤ exponent then
      ofRatio f negative (coefficient * Nat.pow 10 exponent.toNat) 1
    else
      ofRatio f negative coefficient (Nat.pow 10 (-exponent).toNat)

/-- Zero is a zero with the sign that was written, whatever its exponent. -/
theorem ofDecimal_zero (f : Format) (negative : Bool) (exponent : Int) :
    ofDecimal f negative 0 exponent = zero f negative :=
  rfl

/-! ## The grammar -/

/-- A sign at the front of a text, and the rest. -/
def takeSign : List Char → Bool × List Char
  | '+' :: r => (false, r)
  | '-' :: r => (true, r)
  | s => (false, s)

/-- The lower-case form of an ASCII letter; every other character is kept. -/
def lowerAscii (c : Char) : Char :=
  if 'A' ≤ c && c ≤ 'Z' then Char.ofNat (c.toNat + 32) else c

/-- The exponent that makes up the whole rest of a decimal text. -/
def readExponent : List Char → Option Int
  | [] => some 0
  | c :: r =>
    if lowerAscii c = 'e' then
      let (negative, s) := takeSign r
      let (digits, rest) := spanDigits s
      if digits.isEmpty || !rest.isEmpty then
        none
      else
        let n : Int := digitsValue digits
        some (if negative then -n else n)
    else
      none

/-- A decimal text without its sign, as a coefficient and an exponent of ten. -/
def readDecimal (s : List Char) : Option (Nat × Int) :=
  let (whole, afterWhole) := spanDigits s
  let (fraction, rest) := match afterWhole with
    | '.' :: r => spanDigits r
    | _ => ([], afterWhole)
  if whole.isEmpty && fraction.isEmpty then
    none
  else
    (readExponent rest).map fun e =>
      (digitsValue (whole ++ fraction), e - (fraction.length : Int))

/-- Read a number of a format. -/
def read (f : Format) (s : List Char) : Option (Binary f) :=
  let (negative, unsigned) := takeSign s
  let word := String.ofList (unsigned.map lowerAscii)
  if word = "nan" then
    some (nan f negative)
  else if word = "inf" ∨ word = "infinity" then
    some (infinity f negative)
  else
    (readDecimal unsigned).map fun d => ofDecimal f negative d.1 d.2

end TableAccess.Binary
