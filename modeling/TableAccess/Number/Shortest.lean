import TableAccess.Number.Binary
import TableAccess.Text.Digits
/-!
# Shortest decimal digits

A finite number is written with the fewest decimal digits that read back as the
same number.  The reals that round to a number form an interval around it, whose
ends belong to it if the last bit of the number is even.  For one, two, three and
more digits the two neighbours of the number on that decimal grid are tested; the
first grid with a neighbour inside the interval decides, and of two such neighbours
the nearer is taken.

Main results:

- Theorem `pick_within`: the chosen coefficient is one that the interval admits.
- Theorem `coefficient_minimal`: if fewer digits are rejected, no neighbour with
  fewer digits is within the interval.
-/

namespace TableAccess

/-- Which of two equally near digit strings is taken. -/
inductive DigitTie where
  | upward
  | even
deriving DecidableEq, Repr

/-- The positive decimal number `0.d₁d₂d₃…` times ten to the power `point`. -/
structure ShortDecimal where
  digits : List Char
  point : Int
deriving DecidableEq, Repr

namespace Shortest

/-! ## Intervals -/

/-- A positive number together with the reals that round to it, all in the unit
`1 / unit`: the number is `value / unit`, and the interval reaches from `low / unit` to
`high / unit`. -/
structure Interval where
  low : Nat
  value : Nat
  high : Nat
  unit : Nat
  closed : Bool
deriving Repr

/-- Whether the interval admits `n / unit`. -/
def Interval.admits (i : Interval) (n : Nat) : Bool :=
  if i.closed then i.low ≤ n && n ≤ i.high else i.low < n && n < i.high

/-- The interval of a positive finite number. -/
def interval {f : Format} (x : Binary f) : Interval :=
  let s := x.significand
  let lowGap := if s = Nat.pow 2 f.fractionBits ∧ 1 < x.exponentField then 1 else 2
  let e := x.exponent - 2
  let factor := Nat.pow 2 e.toNat
  { low := (4 * s - lowGap) * factor
    value := 4 * s * factor
    high := (4 * s + 2) * factor
    unit := Nat.pow 2 (-e).toNat
    closed := s % 2 = 0 }

/-! ## Grids -/

/-- Whether `n / d` is below ten to the power `k`. -/
def belowPower (n d : Nat) (k : Int) : Bool :=
  if 0 ≤ k then n < d * Nat.pow 10 k.toNat else n * Nat.pow 10 (-k).toNat < d

/-- The place of the decimal point: the least `k` with `n / d` below ten to the power
`k`. -/
def pointOf (n d : Nat) : Int :=
  let guess := ((n.log2 : Int) - (d.log2 : Int) - 1) * 30103 / 100000
  if belowPower n d guess then guess
  else if belowPower n d (guess + 1) then guess + 1
  else guess + 2

/-- The interval in units of ten to the power `k`: numerators are scaled up for a
negative `k`, the unit for a positive one. -/
def Interval.inPower (i : Interval) (k : Int) : Interval :=
  if 0 ≤ k then
    { i with unit := i.unit * Nat.pow 10 k.toNat }
  else
    let factor := Nat.pow 10 (-k).toNat
    { i with low := i.low * factor, value := i.value * factor, high := i.high * factor }

/-- Of a number and its successor, the one with the smaller distance; a tie is decided
as asked. -/
def nearerDigits (tie : DigitTie) (lower below above : Nat) : Nat :=
  if below < above then lower
  else if above < below then lower + 1
  else
    match tie with
    | .upward => lower + 1
    | .even => if lower % 2 = 0 then lower else lower + 1

/-- The whole number that is admitted and nearest to the value, if one of the value's
two neighbours is admitted. -/
def Interval.pick (tie : DigitTie) (i : Interval) : Option Nat :=
  let lower := i.value / i.unit
  if i.admits (lower * i.unit) then
    if i.admits ((lower + 1) * i.unit) then
      some (nearerDigits tie lower (i.value - lower * i.unit) ((lower + 1) * i.unit - i.value))
    else
      some lower
  else if i.admits ((lower + 1) * i.unit) then
    some (lower + 1)
  else
    none

/-- The coefficient with the fewest digits, starting at `count` digits, and its number
of digits; `fuel` more grids are tried. -/
def coefficient (tie : DigitTie) (i : Interval) (point : Int) : Nat → Nat → Nat × Nat
  | 0, count => (i.value / i.unit, count)
  | fuel + 1, count =>
    match (i.inPower (point - count)).pick tie with
    | some m => (m, count)
    | none => coefficient tie i point fuel (count + 1)

/-- Digits without the zeros at their end. -/
def dropTrailingZeros : List Char → List Char
  | [] => []
  | c :: r =>
    match dropTrailingZeros r with
    | [] => if c = '0' then [] else [c]
    | rest => c :: rest

/-- The most digits that a number of any format with at most 53 significant bits
needs. -/
def mostDigits : Nat := 17

/-- The shortest decimal digits of a positive finite number. -/
def shortest (tie : DigitTie) {f : Format} (x : Binary f) : ShortDecimal :=
  let i := interval x
  let point := pointOf i.value i.unit
  let (m, count) := coefficient tie i point mostDigits 1
  let digits := Text.natDigits m
  { digits := dropTrailingZeros digits
    point := point + ((digits.length : Int) - count) }

/-! ## What is chosen -/

/-- The nearer of two neighbours is one of them. -/
theorem nearerDigits_eq (tie : DigitTie) (lower below above : Nat) :
    nearerDigits tie lower below above = lower ∨ nearerDigits tie lower below above = lower + 1 := by
  unfold nearerDigits
  repeat' split
  all_goals simp

/-- The chosen coefficient is one that the interval admits, next to the value. -/
theorem pick_within {tie : DigitTie} {i : Interval} {m : Nat} (h : i.pick tie = some m) :
    i.admits (m * i.unit) = true ∧ (m = i.value / i.unit ∨ m = i.value / i.unit + 1) := by
  simp only [Interval.pick] at h
  split at h
  · rename_i hlow
    split at h <;> obtain rfl := Option.some.inj h
    · rename_i hhigh
      rcases nearerDigits_eq tie (i.value / i.unit) (i.value - i.value / i.unit * i.unit)
        ((i.value / i.unit + 1) * i.unit - i.value) with heq | heq <;> rw [heq]
      · exact ⟨hlow, .inl rfl⟩
      · exact ⟨hhigh, .inr rfl⟩
    · exact ⟨hlow, .inl rfl⟩
  · split at h
    · rename_i hhigh
      obtain rfl := Option.some.inj h
      exact ⟨hhigh, .inr rfl⟩
    · simp at h

/-- A grid is passed over only if it has no admitted neighbour of the value. -/
theorem coefficient_minimal (tie : DigitTie) (i : Interval) (point : Int) (fuel count k : Nat)
    (hcount : count ≤ k) (hk : k < (coefficient tie i point fuel count).2) :
    (i.inPower (point - k)).pick tie = none := by
  induction fuel generalizing count with
  | zero => simp only [coefficient] at hk; omega
  | succ fuel ih =>
    unfold coefficient at hk
    split at hk
    · simp only at hk; omega
    · rename_i hnone
      rcases Nat.eq_or_lt_of_le hcount with rfl | hlt
      · exact hnone
      · exact ih (count + 1) hlt hk

end Shortest

end TableAccess
