import TableAccess.Number.Shortest
/-!
# Layout of floating-point text

How the shortest digits of a number are laid out.  There are two layouts: plain
text, for SQL literals and text parameters, and document numbers.  Both keep a
digit after the decimal point or write an exponent, so that the text is never
that of an integer.

Main results:

- Theorem `render_zero`: zeros of either sign are written out in both layouts.
-/

namespace TableAccess

/-- The decisions of a layout. -/
structure Layout where
  /-- The least place of the decimal point that is written without an exponent. -/
  leastPoint : Int
  /-- The greatest place of the decimal point that is written without an exponent. -/
  greatestPoint : Int
  /-- Whether an exponent that is not negative has a plus sign. -/
  plusSign : Bool
  /-- Which of two equally near digit strings is taken. -/
  tie : DigitTie
deriving Repr

namespace Layout

/-- Plain text is positional from 0.0001 up to, not including, 10 to the power 16. -/
def plain : Layout := ⟨-3, 16, false, .upward⟩

/-- Document numbers are positional from 0.00001 up to, not including, 10 to the power
16, and their exponents always have a sign. -/
def document : Layout := ⟨-4, 16, true, .even⟩

/-- Digits with the decimal point put into its place. -/
def positional (d : ShortDecimal) : List Char :=
  if d.point ≤ 0 then
    '0' :: '.' :: (List.replicate (-d.point).toNat '0' ++ d.digits)
  else
    let whole := d.digits.take d.point.toNat
    let fraction := d.digits.drop d.point.toNat
    if fraction.isEmpty then
      whole ++ List.replicate (d.point.toNat - whole.length) '0' ++ ['.', '0']
    else
      whole ++ '.' :: fraction

/-- One digit, a point before the others if there are any, and an exponent. -/
def scientific (layout : Layout) (d : ShortDecimal) : List Char :=
  let exponent := d.point - 1
  let mark := if layout.plusSign && 0 ≤ exponent then ['e', '+'] else ['e']
  let mantissa := match d.digits with
    | [] => []
    | [c] => [c]
    | c :: r => c :: '.' :: r
  mantissa ++ mark ++ Text.intDigits exponent

/-- The text of a positive number given by its digits. -/
def arrange (layout : Layout) (d : ShortDecimal) : List Char :=
  if layout.leastPoint ≤ d.point ∧ d.point ≤ layout.greatestPoint then
    positional d
  else
    layout.scientific d

/-- The text of a number.  Infinities and what is no number are written as words. -/
def render (layout : Layout) {f : Format} (x : Binary f) : List Char :=
  if x.isNaN then
    ['N', 'a', 'N']
  else
    let sign := if x.negative then ['-'] else []
    if x.isFinite then
      if x.isZero then
        sign ++ ['0', '.', '0']
      else
        sign ++ layout.arrange (Shortest.shortest layout.tie x)
    else
      sign ++ ['i', 'n', 'f']

/-- Zeros of either sign are written out in every layout. -/
theorem render_zero (layout : Layout) (negative : Bool) :
    layout.render (Binary.zero .binary64 negative) =
      if negative then ['-', '0', '.', '0'] else ['0', '.', '0'] := by
  cases negative <;> rfl

end Layout

/-- The plain text of a floating-point number. -/
def Binary.plainText {f : Format} (x : Binary f) : String :=
  String.ofList (Layout.plain.render x)

end TableAccess
