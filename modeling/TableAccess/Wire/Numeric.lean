import TableAccess.Number.Decimal
import TableAccess.Wire.BigEndian
/-!
# Exact numerics

An exact numeric travels as a header of four words followed by digits to the base ten
thousand: the number of digits, the weight of the first digit as a power of the base, a
word for the sign, and the number of decimal places.

Results are turned into text directly from the digits, because they may have more digits
than a decimal holds; parameters are sent from decimals.

Main results:

- Theorem `wordsOf_length`: words are pairs of octets.
- Theorem `send_zero`: zero of either sign is sent without digits.
- Theorem `decode_short`: a numeric without a complete header is not read.
-/

namespace TableAccess.Wire.Numeric

open Text

/-- The base of the digits. -/
def base : Nat := 10000

/-! ## Sending -/

/-- The digits of a number to the base, most significant first; zero has none. -/
def baseDigits (n : Nat) : List Nat :=
  if _h : n = 0 then [] else baseDigits (n / base) ++ [n % base]
termination_by n
decreasing_by exact Nat.div_lt_self (Nat.pos_of_ne_zero _h) (by decide)

/-- Digits without the zeros at their end. -/
def dropZeros (digits : List Nat) : List Nat :=
  (digits.reverse.dropWhile (· == 0)).reverse

/-- A header and digits as octets. -/
def encode (weight : Int) (negative : Bool) (scale : Nat) (digits : List Nat) : Octets :=
  natOctets 2 digits.length ++ intOctets 2 weight ++
    natOctets 2 (if negative then 0x4000 else 0) ++ natOctets 2 scale ++
    digits.flatMap (natOctets 2)

/-- A decimal as octets.  Its places are filled up to whole digits of the base; digits after
the point that are zero are left out at the end if there is a digit before the point. -/
def send (d : Decimal) : Octets :=
  if d.coefficient = 0 then
    encode 0 false 0 []
  else
    let fractionDigits := (d.scale + 3) / 4
    let digits := baseDigits (d.coefficient * Nat.pow 10 (4 * fractionDigits - d.scale))
    let weight := (digits.length : Int) - fractionDigits - 1
    let digits :=
      if 0 ≤ weight then
        let whole := weight.toNat + 1
        digits.take whole ++ dropZeros (digits.drop whole)
      else
        digits
    encode weight d.negative d.scale digits

/-- Zero of either sign is sent without digits. -/
theorem send_zero (negative : Bool) (scale : Nat) :
    send ⟨negative, 0, scale⟩ = [0, 0, 0, 0, 0, 0, 0, 0] := by
  rfl

/-! ## Reading -/

/-- Pairs of octets as words; an octet that is left over is ignored. -/
def wordsOf : Octets → List Nat
  | high :: low :: r => (256 * high.toNat + low.toNat) :: wordsOf r
  | _ => []

/-- Words are pairs of octets. -/
theorem wordsOf_length : ∀ octets : Octets, (wordsOf octets).length = octets.length / 2
  | [] => rfl
  | [_] => by simp [wordsOf]
  | high :: low :: r => by
    simp only [wordsOf, List.length_cons, wordsOf_length r]
    omega

/-- What the sign word says. -/
inductive Sign where
  | positive
  | negative
  | nan
  | infinity
  | negativeInfinity
deriving DecidableEq, Repr

/-- The meaning of a sign word. -/
def Sign.ofWord? (word : Nat) : Option Sign :=
  if word = 0x0000 then some positive
  else if word = 0x4000 then some negative
  else if word = 0xC000 then some nan
  else if word = 0xD000 then some infinity
  else if word = 0xF000 then some negativeInfinity
  else none

/-- The digit at a place, counted from the first one; zero where none was sent. -/
def digitAt (digits : List Nat) (place : Int) : Nat :=
  if place < 0 then 0 else digits.getD place.toNat 0

/-- The text of the digits before the point. -/
def wholeText (digits : List Nat) (weight : Int) : List Char :=
  if weight < 0 then
    ['0']
  else
    natDigits (digitAt digits 0) ++
      (List.range weight.toNat).flatMap fun (i : Nat) => paddedDigits 4 (digitAt digits (i + 1))

/-- The text of `scale` decimal places. -/
def fractionText (digits : List Nat) (weight : Int) (scale : Nat) : List Char :=
  ((List.range ((scale + 3) / 4)).flatMap fun (i : Nat) =>
    paddedDigits 4 (digitAt digits (weight + 1 + i))).take scale

/-- The text of a number that is finite. -/
def finiteText (negative : Bool) (digits : List Nat) (weight : Int) (scale : Nat) : List Char :=
  (if negative then ['-'] else []) ++ wholeText digits weight ++
    if scale = 0 then [] else '.' :: fractionText digits weight scale

/-- A word as a signed number. -/
def signedWord (word : Nat) : Int :=
  if word < 0x8000 then word else word - 0x10000

/-- The text of a numeric; none if a word is missing or the sign is unknown. -/
def decode? (octets : Octets) : Option (List Char) :=
  match wordsOf octets with
  | count :: weight :: sign :: scale :: rest =>
    if rest.length < count then
      none
    else
      (Sign.ofWord? sign).map fun sign =>
        let digits := rest.take count
        match sign with
        | .positive => finiteText false digits (signedWord weight) scale
        | .negative => finiteText true digits (signedWord weight) scale
        | .nan => "NaN".toList
        | .infinity => "Infinity".toList
        | .negativeInfinity => "-Infinity".toList
  | _ => none

/-- A numeric without a complete header is not read. -/
theorem decode_short {octets : Octets} (h : octets.length < 8) : decode? octets = none := by
  have hlength := wordsOf_length octets
  unfold decode?
  split
  · rename_i hwords
    rw [hwords] at hlength
    simp only [List.length_cons] at hlength
    omega
  · rfl

end TableAccess.Wire.Numeric
