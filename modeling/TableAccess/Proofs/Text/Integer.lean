import TableAccess.Number.Reading
import TableAccess.Proofs.Text.Digits
import TableAccess.Text.Blank
import TableAccess.Text.Integer
/-!
# The texts of integers

An integer is read from at least one digit with or without a sign, and from nothing else.  The
value is that of the digits with the sign.  Ranges that have no negative numbers refuse a minus,
even before a zero.

Main results:

- Theorem `readInteger_eq_ok_iff`: which texts are read as an integer of a range.
- Theorem `takeSign_eq`: the sign and the digits of such a text are its own.
-/

namespace TableAccess.Text

/-! ## Single characters -/

/-- The decimal digits. -/
def digitChars : List Char := ['0', '1', '2', '3', '4', '5', '6', '7', '8', '9']

/-- There are no other digits than the ten. -/
theorem mem_digitChars {c : Char} (h : isDigit c = true) : c ∈ digitChars := by
  have hlow : '0'.val ≤ c.val := by
    rw [isDigit, Bool.and_eq_true, decide_eq_true_eq] at h
    exact h.1
  have hnumber : 48 ≤ c.toNat := hlow
  have hsmall := toNat_sub_lt_of_isDigit h
  have hdigit : ∀ m : Fin 10, Char.ofNat (48 + m.val) ∈ digitChars := by decide
  have hmem := hdigit ⟨c.toNat - 48, hsmall⟩
  rwa [Nat.add_sub_cancel' hnumber, Char.ofNat_toNat] at hmem

/-- What holds for the ten digits holds for every character that is one. -/
theorem test_of_isDigit {p : Char → Bool} (h : digitChars.all p = true) {c : Char}
    (hc : isDigit c = true) : p c = true :=
  List.all_eq_true.1 h c (mem_digitChars hc)

/-- A digit is no blank. -/
theorem isBlank_of_isDigit {c : Char} (h : isDigit c = true) : isBlank c = false := by
  have hall : digitChars.all (fun d => !isBlank d) = true := by decide
  simpa using test_of_isDigit hall h

theorem isDigit_of_isBlank {c : Char} (h : isBlank c = true) : isDigit c = false := by
  by_contra hdigit
  rw [isBlank_of_isDigit (by simpa using hdigit)] at h
  cases h

theorem ne_of_isDigit {c d : Char} (hc : isDigit c = true) (hd : isDigit d = false) : c ≠ d := by
  rintro rfl
  rw [hc] at hd
  cases hd

/-! ## The grammar -/

/-- The signs of integers, and whether they are a minus. -/
inductive IsSign : List Char → Bool → Prop
  | none : IsSign [] false
  | plus : IsSign ['+'] false
  | minus : IsSign ['-'] true

/-- Whether a text is that of an integer with these digits. -/
structure IsInteger (s : List Char) (negative : Bool) (digits : List Char) : Prop where
  text : ∃ sign, IsSign sign negative ∧ s = sign ++ digits
  nonempty : digits ≠ []
  digit : ∀ c ∈ digits, isDigit c = true

/-- A number with a sign. -/
def signedValue (negative : Bool) (n : Nat) : Int :=
  if negative then -n else n

@[simp]
theorem signedValue_false (n : Nat) : signedValue false n = n :=
  rfl

@[simp]
theorem signedValue_true (n : Nat) : signedValue true n = -n :=
  rfl

/-- A number is zero with and without a sign. -/
theorem signedValue_eq_zero_iff (negative : Bool) (n : Nat) :
    signedValue negative n = 0 ↔ n = 0 := by
  cases negative <;> simp

/-- A sign does not change the magnitude. -/
theorem natAbs_signedValue (negative : Bool) (n : Nat) :
    (signedValue negative n).natAbs = n := by
  cases negative <;> simp

/-- The sign of a number that is not zero is that of its value. -/
theorem decide_signedValue_neg (negative : Bool) {n : Nat} (h : n ≠ 0) :
    decide (signedValue negative n < 0) = negative := by
  cases negative with
  | false =>
    rw [signedValue_false, decide_eq_false_iff_not]
    omega
  | true =>
    rw [signedValue_true, decide_eq_true_eq]
    omega

namespace IsInteger

variable {s digits : List Char} {negative : Bool} (h : IsInteger s negative digits)
include h

/-- The sign of an integer and its digits are its own. -/
theorem takeSign_eq : Binary.takeSign s = (negative, digits) := by
  obtain ⟨⟨sign, hsign, rfl⟩, hne, hdigit⟩ := h
  obtain ⟨c, r, rfl⟩ := List.exists_cons_of_ne_nil hne
  cases hsign with
  | plus => rfl
  | minus => rfl
  | none =>
    have hc := hdigit c List.mem_cons_self
    rw [List.nil_append]
    unfold Binary.takeSign
    split
    · rename_i heq
      exact absurd (List.cons.inj heq).1 (ne_of_isDigit hc (by decide))
    · rename_i heq
      exact absurd (List.cons.inj heq).1 (ne_of_isDigit hc (by decide))
    · rfl

/-- An integer has signs and digits only. -/
theorem mem_cases {c : Char} (hc : c ∈ s) : c = '+' ∨ c = '-' ∨ isDigit c = true := by
  obtain ⟨⟨sign, hsign, rfl⟩, -, hdigit⟩ := h
  rcases List.mem_append.1 hc with hc | hc
  · cases hsign with
    | none => cases hc
    | plus => exact .inl (List.mem_singleton.1 hc)
    | minus => exact .inr (.inl (List.mem_singleton.1 hc))
  · exact .inr (.inr (hdigit c hc))

end IsInteger

/-! ## Reading -/

/-- A range holds the integers between its bounds. -/
theorem IntegerRange.holds_iff (range : IntegerRange) (i : Int) :
    range.holds i = true ↔ range.low ≤ i ∧ i ≤ range.high := by
  simp [holds]

/-- Digits are read up to a limit, and nothing else is. -/
theorem readDigits_eq_ok (limit n : Nat) (beyond : IntegerFault) (digits : List Char) :
    readDigits limit beyond digits = .ok n ↔
      digits ≠ [] ∧ (∀ c ∈ digits, isDigit c = true) ∧ digitsValue digits = n ∧ n ≤ limit := by
  unfold readDigits
  cases digits with
  | nil => simp
  | cons c r =>
    rw [List.isEmpty_cons, if_neg Bool.false_ne_true,
      readMagnitude_eq_ok limit beyond 0 n (c :: r) (Nat.zero_le _)]
    simp [digitsValue]

/-- An integer without a sign is one of digits only. -/
theorem readInteger_of_isDigit (range : IntegerRange) {c : Char} (h : isDigit c = true)
    (r : List Char) :
    readInteger range (c :: r) =
      (readDigits range.high.toNat .tooLarge (c :: r)).map Int.ofNat := by
  unfold readInteger
  split
  · rename_i heq
    cases heq
  · rename_i heq
    exact absurd (List.cons.inj heq).1 (ne_of_isDigit h (by decide))
  · rename_i heq
    exact absurd (List.cons.inj heq).1 (ne_of_isDigit h (by decide))
  · rfl

/-- A minus is accepted exactly by ranges with negative numbers. -/
theorem readInteger_minus (range : IntegerRange) (r : List Char) :
    readInteger range ('-' :: r) =
      if range.signed then (readDigits range.low.natAbs .tooSmall r).map (signedValue true)
      else .error .invalidDigit := by
  rw [readInteger]
  cases readDigits range.low.natAbs .tooSmall r <;> rfl

theorem map_eq_ok {α β ε : Type} {f : α → β} {x : Except ε α} {b : β} :
    x.map f = .ok b ↔ ∃ a, x = .ok a ∧ f a = b := by
  cases x <;> simp [Except.map]

/-- Which texts are read as an integer of a range that zero belongs to. -/
theorem readInteger_eq_ok_iff {range : IntegerRange} (low : range.low ≤ 0) (high : 0 ≤ range.high)
    (s : List Char) (i : Int) :
    readInteger range s = .ok i ↔ ∃ negative digits, IsInteger s negative digits ∧
      i = signedValue negative (digitsValue digits) ∧ range.holds i = true ∧
      (negative = true → range.signed = true) := by
  constructor
  · intro h
    by_cases hminus : ∃ r, s = '-' :: r
    · obtain ⟨r, rfl⟩ := hminus
      rw [readInteger_minus] at h
      split at h
      · rename_i hsigned
        obtain ⟨n, hn, rfl⟩ := map_eq_ok.1 h
        obtain ⟨hne, hdigit, rfl, hle⟩ := (readDigits_eq_ok _ _ _ _).1 hn
        refine ⟨true, r, ⟨⟨_, .minus, rfl⟩, hne, hdigit⟩, rfl, (range.holds_iff _).2 ?_,
          fun _ => hsigned⟩
        rw [signedValue_true]
        omega
      · cases h
    unfold readInteger at h
    split at h
    · cases h
    · obtain ⟨n, hn, rfl⟩ := map_eq_ok.1 h
      obtain ⟨hne, hdigit, rfl, hle⟩ := (readDigits_eq_ok _ _ _ _).1 hn
      refine ⟨false, _, ⟨⟨_, .plus, rfl⟩, hne, hdigit⟩, rfl, (range.holds_iff _).2 ?_, nofun⟩
      simp only [Int.ofNat_eq_natCast]
      omega
    · exact absurd ⟨_, rfl⟩ hminus
    · obtain ⟨n, hn, rfl⟩ := map_eq_ok.1 h
      obtain ⟨hne, hdigit, rfl, hle⟩ := (readDigits_eq_ok _ _ _ _).1 hn
      refine ⟨false, _, ⟨⟨_, .none, rfl⟩, hne, hdigit⟩, rfl, (range.holds_iff _).2 ?_, nofun⟩
      simp only [Int.ofNat_eq_natCast]
      omega
  · rintro ⟨negative, digits, ⟨⟨sign, hsign, rfl⟩, hne, hdigit⟩, rfl, hrange, hsigned⟩
    rw [range.holds_iff] at hrange
    cases hsign with
    | none =>
      rw [signedValue_false] at hrange
      have hread : readDigits range.high.toNat .tooLarge digits = .ok (digitsValue digits) :=
        (readDigits_eq_ok _ _ _ _).2 ⟨hne, hdigit, rfl, by omega⟩
      obtain ⟨c, r, rfl⟩ := List.exists_cons_of_ne_nil hne
      rw [List.nil_append, readInteger_of_isDigit range (hdigit c List.mem_cons_self)]
      exact map_eq_ok.2 ⟨_, hread, rfl⟩
    | plus =>
      rw [signedValue_false] at hrange
      rw [List.singleton_append, readInteger]
      exact map_eq_ok.2
        ⟨_, (readDigits_eq_ok _ _ _ _).2 ⟨hne, hdigit, rfl, by omega⟩, rfl⟩
    | minus =>
      rw [signedValue_true] at hrange
      rw [List.singleton_append, readInteger_minus, if_pos (hsigned rfl)]
      exact map_eq_ok.2
        ⟨_, (readDigits_eq_ok _ _ _ _).2 ⟨hne, hdigit, rfl, by omega⟩, rfl⟩

end TableAccess.Text
