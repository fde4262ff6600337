/-!
# Decimal digits

Reading and writing runs of ASCII decimal digits.  Every number format of the
library is built on these: integers, binary floating-point text, decimals, dates
and the numbers inside documents.

Main results:

- Theorem `digitValue?_digitChar`: a written digit reads back as its value.
- Theorem `digitsValue_append`: the value of a longer run of digits.
- Theorem `length_takeDigits_le`: reading digits never lengthens what is left.
-/

namespace TableAccess.Text

/-! ## One digit -/

/-- Whether a character is an ASCII decimal digit. -/
def isDigit (c : Char) : Bool :=
  '0' ≤ c && c ≤ '9'

/-- The value of an ASCII decimal digit. -/
def digitValue? (c : Char) : Option Nat :=
  if isDigit c then some (c.toNat - 48) else none

/-- The digit that stands for a number below ten. -/
def digitChar (n : Nat) : Char :=
  Char.ofNat (48 + n % 10)

/-- A written digit reads back as its value. -/
theorem digitValue?_digitChar (n : Nat) : digitValue? (digitChar n) = some (n % 10) := by
  have h : ∀ m : Fin 10, digitValue? (Char.ofNat (48 + m.val)) = some m.val := by decide
  exact h ⟨n % 10, Nat.mod_lt n (by decide)⟩

/-! ## Runs of digits -/

/-- The number that a run of digits denotes, most significant digit first. -/
def digitsValue (digits : List Char) : Nat :=
  digits.foldl (fun value c => 10 * value + (c.toNat - 48)) 0

/-- The longest run of digits at the front of a text, of at most `limit` digits, and
what follows it. -/
def takeDigits : Nat → List Char → List Char × List Char
  | 0, s => ([], s)
  | _ + 1, [] => ([], [])
  | limit + 1, c :: r =>
    if isDigit c then
      let (digits, rest) := takeDigits limit r
      (c :: digits, rest)
    else
      ([], c :: r)

/-- All digits at the front of a text and what follows them. -/
def spanDigits (s : List Char) : List Char × List Char :=
  (s.takeWhile isDigit, s.dropWhile isDigit)

/-- The value of a run followed by one more digit. -/
theorem digitsValue_append (s : List Char) (c : Char) :
    digitsValue (s ++ [c]) = 10 * digitsValue s + (c.toNat - 48) := by
  simp [digitsValue]

/-- The digits taken and the rest make up the text. -/
theorem takeDigits_append (limit : Nat) (s : List Char) :
    (takeDigits limit s).1 ++ (takeDigits limit s).2 = s := by
  induction limit generalizing s with
  | zero => rfl
  | succ limit ih =>
    cases s with
    | nil => rfl
    | cons c r =>
      by_cases h : isDigit c = true
      · simp [takeDigits, h, ih r]
      · simp [takeDigits, h]

/-- Reading digits never lengthens what is left. -/
theorem length_takeDigits_le (limit : Nat) (s : List Char) :
    (takeDigits limit s).2.length ≤ s.length := by
  have h := congrArg List.length (takeDigits_append limit s)
  rw [List.length_append] at h
  omega

/-! ## Writing numbers -/

/-- The decimal digits of a number, without leading zeros. -/
def natDigits (n : Nat) : List Char :=
  if n < 10 then [digitChar n] else natDigits (n / 10) ++ [digitChar n]
termination_by n
decreasing_by omega

/-- The decimal digits of a number, filled up with zeros on the left to a width. -/
def paddedDigits (width n : Nat) : List Char :=
  let digits := natDigits n
  List.replicate (width - digits.length) '0' ++ digits

/-- The decimal text of an integer. -/
def intDigits (i : Int) : List Char :=
  if i < 0 then '-' :: natDigits i.natAbs else natDigits i.natAbs

/-- The decimal text of a natural number. -/
def natText (n : Nat) : String :=
  String.ofList (natDigits n)

/-- The decimal text of an integer. -/
def intText (i : Int) : String :=
  String.ofList (intDigits i)

/-- The digits of a number denote it. -/
theorem digitsValue_natDigits (n : Nat) : digitsValue (natDigits n) = n := by
  have digit : ∀ m : Fin 10, (Char.ofNat (48 + m.val)).toNat - 48 = m.val := by decide
  induction n using Nat.strongRecOn with
  | ind n ih =>
    have hlast : (digitChar n).toNat - 48 = n % 10 := digit ⟨n % 10, Nat.mod_lt n (by decide)⟩
    rw [natDigits]
    split
    · simp only [digitsValue, List.foldl_cons, List.foldl_nil, hlast]
      omega
    · rw [digitsValue_append, ih (n / 10) (by omega), hlast]
      omega

end TableAccess.Text
