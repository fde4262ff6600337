import TableAccess.Text.Digits
/-!
# Reading bounded integers

An integer text is an optional sign followed by at least one decimal digit.  The
text is read digit by digit, and the first digit that is no digit or that leaves
the range decides the fault.  A range without negative numbers has no minus sign.

Main results:

- Theorem `readMagnitude_eq_ok`: a run of digits is read exactly when its value
  is within the limit.
-/

namespace TableAccess.Text

/-! ## Ranges and faults -/

/-- The integers from `low` to `high`. -/
structure IntegerRange where
  low : Int
  high : Int
deriving DecidableEq, Repr

namespace IntegerRange

/-- Integers of two octets, with a sign. -/
def int16 : IntegerRange := ⟨-32768, 32767⟩

/-- Integers of four octets, with a sign. -/
def int32 : IntegerRange := ⟨-2147483648, 2147483647⟩

/-- Integers of eight octets, with a sign. -/
def int64 : IntegerRange := ⟨-9223372036854775808, 9223372036854775807⟩

/-- Natural numbers of one octet. -/
def nat8 : IntegerRange := ⟨0, 255⟩

/-- Natural numbers of two octets. -/
def nat16 : IntegerRange := ⟨0, 65535⟩

/-- Natural numbers of four octets. -/
def nat32 : IntegerRange := ⟨0, 4294967295⟩

/-- Natural numbers of eight octets. -/
def nat64 : IntegerRange := ⟨0, 18446744073709551615⟩

/-- Whether an integer lies in the range. -/
def holds (range : IntegerRange) (i : Int) : Bool :=
  range.low ≤ i && i ≤ range.high

/-- Whether the range has negative numbers, so that a minus sign may be read. -/
def signed (range : IntegerRange) : Bool :=
  range.low < 0

end IntegerRange

/-- Why a text is no integer of a range. -/
inductive IntegerFault where
  | empty
  | invalidDigit
  | tooLarge
  | tooSmall
deriving DecidableEq, Repr

/-- The words for a fault. -/
def IntegerFault.message : IntegerFault → String
  | .empty => "cannot parse integer from empty string"
  | .invalidDigit => "invalid digit found in string"
  | .tooLarge => "number too large to fit in target type"
  | .tooSmall => "number too small to fit in target type"

/-! ## Reading -/

/-- Continue a magnitude with further digits.  Each character is first checked to be
a digit, then the longer magnitude is checked against the limit. -/
def readMagnitude (limit : Nat) (beyond : IntegerFault) :
    Nat → List Char → Except IntegerFault Nat
  | value, [] => .ok value
  | value, c :: r =>
    match digitValue? c with
    | none => .error .invalidDigit
    | some d =>
      if 10 * value + d ≤ limit then
        readMagnitude limit beyond (10 * value + d) r
      else
        .error beyond

/-- Read the digits of a number that has at least one. -/
def readDigits (limit : Nat) (beyond : IntegerFault) (digits : List Char) :
    Except IntegerFault Nat :=
  if digits.isEmpty then .error .invalidDigit else readMagnitude limit beyond 0 digits

/-- Read an integer of a range. -/
def readInteger (range : IntegerRange) : List Char → Except IntegerFault Int
  | [] => .error .empty
  | '+' :: digits => (readDigits range.high.toNat .tooLarge digits).map Int.ofNat
  | '-' :: digits =>
    if range.signed then
      (readDigits range.low.natAbs .tooSmall digits).map fun n => -(n : Int)
    else
      .error .invalidDigit
  | digits => (readDigits range.high.toNat .tooLarge digits).map Int.ofNat

/-! ## What is read -/

/-- A longer run of digits has the value of its first digits continued. -/
theorem foldl_digits_le (value : Nat) (s : List Char) :
    value ≤ s.foldl (fun value c => 10 * value + (c.toNat - 48)) value := by
  induction s generalizing value with
  | nil => exact Nat.le_refl _
  | cons c r ih =>
    rw [List.foldl_cons]
    exact Nat.le_trans (by omega) (ih (10 * value + (c.toNat - 48)))

/-- Reading further digits succeeds exactly on digits whose value is within the limit,
and then gives that value. -/
theorem readMagnitude_eq_ok (limit : Nat) (beyond : IntegerFault) (value n : Nat)
    (s : List Char) (hvalue : value ≤ limit) :
    readMagnitude limit beyond value s = .ok n ↔
      (∀ c ∈ s, isDigit c = true) ∧
        s.foldl (fun value c => 10 * value + (c.toNat - 48)) value = n ∧ n ≤ limit := by
  induction s generalizing value with
  | nil =>
    simp only [readMagnitude, List.foldl_nil, Except.ok.injEq]
    constructor
    · rintro rfl
      exact ⟨by simp, rfl, hvalue⟩
    · exact fun h => h.2.1
  | cons c r ih =>
    by_cases hc : isDigit c = true
    · simp only [readMagnitude, digitValue?, if_pos hc, List.foldl_cons]
      by_cases hle : 10 * value + (c.toNat - 48) ≤ limit
      · rw [if_pos hle, ih _ hle]
        simp [hc]
      · rw [if_neg hle]
        constructor
        · simp
        · rintro ⟨_, hn, hlimit⟩
          have := foldl_digits_le (10 * value + (c.toNat - 48)) r
          omega
    · simp [readMagnitude, digitValue?, hc]

end TableAccess.Text
