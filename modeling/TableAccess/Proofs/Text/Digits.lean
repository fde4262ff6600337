import Mathlib.Data.List.Induction
import Mathlib.Data.List.TakeWhile
import Mathlib.Tactic.Ring
import TableAccess.Text.Digits
/-!
# Decimal digits of the core library

The digits that the library writes are those of the core library, so a number that is
written into SQL text has its usual decimal form.  The value of a run of digits is that of
its first digits, moved by the number of the others, and that of the others.

Main results:

- Theorem `natDigits_eq_toDigits`: the digits of a natural number.
- Theorem `append_natText_injective`: names with numbers after them differ if the numbers do.
- Theorem `digitsValue_append_digits`: the value of two runs of digits.
- Theorem `digitsValue_div`: division by a power of ten leaves the last digits out.
-/

namespace TableAccess.Text

/-! ## Written digits -/

/-- The digit of a number below ten is that of the core library. -/
theorem digitChar_eq (n : Nat) : digitChar n = Nat.digitChar (n % 10) := by
  have h : ∀ m : Fin 10, Char.ofNat (48 + m.val) = Nat.digitChar m.val := by decide
  exact h ⟨n % 10, Nat.mod_lt n (by decide)⟩

/-- The digits of a natural number. -/
theorem natDigits_eq_toDigits (n : Nat) : natDigits n = Nat.toDigits 10 n := by
  induction n using Nat.strongRecOn with
  | ind n ih =>
    rw [natDigits]
    split
    · rename_i h
      rw [Nat.toDigits_of_lt_base h, digitChar_eq, Nat.mod_eq_of_lt h]
    · rename_i h
      rw [Nat.toDigits_of_base_le (by decide) (by omega), ih (n / 10) (by omega), digitChar_eq]

/-- Different numbers have different digits. -/
theorem natDigits_injective : Function.Injective natDigits := by
  intro m n h
  rw [← digitsValue_natDigits m, h, digitsValue_natDigits]

/-- A number is written with digits only. -/
theorem isDigit_of_mem_natDigits {n : Nat} {c : Char} (h : c ∈ natDigits n) :
    c.isDigit = true := by
  rw [natDigits_eq_toDigits] at h
  exact Nat.isDigit_of_mem_toDigits (by decide) (by decide) h

/-- Names with numbers after them differ if the numbers do. -/
theorem append_natText_injective (mark : String) :
    Function.Injective fun n => mark ++ natText n := by
  intro m n h
  apply natDigits_injective
  simpa [natText] using congrArg String.toList h

theorem natDigits_ne_nil (n : Nat) : natDigits n ≠ [] := by
  rw [natDigits_eq_toDigits]
  exact Nat.toDigits_ne_nil

/-- Only zero is written with a zero in front. -/
theorem head?_natDigits_ne {n : Nat} (h : n ≠ 0) : (natDigits n).head? ≠ some '0' := by
  induction n using Nat.strongRecOn with
  | ind n ih =>
    rw [natDigits]
    split
    · rename_i hn
      have hdigit : ∀ m : Fin 10, m.val ≠ 0 → Char.ofNat (48 + m.val) ≠ '0' := by decide
      have hlast := hdigit ⟨n, hn⟩ h
      simpa [digitChar, Nat.mod_eq_of_lt hn] using hlast
    · rename_i hn
      have hfront := ih (n / 10) (by omega) (by omega)
      cases hdigits : natDigits (n / 10) with
      | nil => exact absurd hdigits (natDigits_ne_nil _)
      | cons c r => simpa [hdigits] using hfront

/-! ## Runs at the front of a text -/

/-- A run of characters of a kind ends where a character of another kind follows. -/
theorem takeWhile_append_of_head {p : Char → Bool} {s rest : List Char}
    (hs : ∀ c ∈ s, p c = true) (hrest : ∀ c, rest.head? = some c → p c = false) :
    (s ++ rest).takeWhile p = s ∧ (s ++ rest).dropWhile p = rest := by
  have hnone : rest.takeWhile p = [] ∧ rest.dropWhile p = rest := by
    cases rest with
    | nil => simp
    | cons c r => simp [hrest c rfl]
  rw [List.takeWhile_append_of_pos hs, List.dropWhile_append_of_pos hs, hnone.1, hnone.2]
  simp

/-- A run of digits ends where no digit follows. -/
theorem spanDigits_append {digits rest : List Char} (h : ∀ c ∈ digits, isDigit c = true)
    (hrest : ∀ c, rest.head? = some c → isDigit c = false) :
    spanDigits (digits ++ rest) = (digits, rest) := by
  obtain ⟨htake, hdrop⟩ := takeWhile_append_of_head h hrest
  rw [spanDigits, htake, hdrop]

theorem spanDigits_of_digits {digits : List Char} (h : ∀ c ∈ digits, isDigit c = true) :
    spanDigits digits = (digits, []) := by
  have hspan := spanDigits_append h fun c (hc : List.head? [] = some c) => nomatch hc
  rwa [List.append_nil] at hspan

/-- All of a run of digits is taken if there is room for it and it ends there, or there is no
room for more. -/
theorem takeDigits_append_of_digits {limit : Nat} {digits rest : List Char}
    (h : ∀ c ∈ digits, isDigit c = true) (room : digits.length ≤ limit)
    (ends : digits.length = limit ∨ ∀ c, rest.head? = some c → isDigit c = false) :
    takeDigits limit (digits ++ rest) = (digits, rest) := by
  induction digits generalizing limit with
  | nil =>
    cases limit with
    | zero => rfl
    | succ limit =>
      cases rest with
      | nil => rfl
      | cons c r =>
        have hc : isDigit c = false := ends.resolve_left (by simp) c rfl
        simp [takeDigits, hc]
  | cons d digits ih =>
    cases limit with
    | zero => simp at room
    | succ limit =>
      have hd := h d List.mem_cons_self
      have hrest := ih (fun c hc => h c (List.mem_cons_of_mem d hc)) (Nat.le_of_succ_le_succ room)
        (ends.imp_left Nat.succ.inj)
      simp [takeDigits, hd, hrest]

/-! ## Values of runs of digits -/

/-- The digits are those of the core library. -/
theorem isDigit_eq (c : Char) : isDigit c = c.isDigit := by
  rw [isDigit, Char.isDigit, Bool.eq_iff_iff]
  simp [Char.le_def]

theorem toNat_sub_lt_of_isDigit {c : Char} (h : isDigit c = true) : c.toNat - 48 < 10 := by
  have hbound : c.val ≤ '9'.val := by
    rw [isDigit, Bool.and_eq_true, decide_eq_true_eq, decide_eq_true_eq] at h
    exact h.2
  have : c.toNat ≤ 57 := hbound
  omega

@[simp]
theorem digitsValue_nil : digitsValue [] = 0 :=
  rfl

/-- The value of two runs of digits. -/
theorem digitsValue_append_digits (s t : List Char) :
    digitsValue (s ++ t) = digitsValue s * 10 ^ t.length + digitsValue t := by
  induction t using List.reverseRecOn with
  | nil => simp
  | append_singleton t c ih =>
    rw [← List.append_assoc, digitsValue_append, digitsValue_append, ih, List.length_append,
      List.length_singleton, pow_succ]
    ring

theorem digitsValue_replicate_zero (n : Nat) : digitsValue (List.replicate n '0') = 0 := by
  induction n with
  | zero => rfl
  | succ n ih => rw [List.replicate_succ', digitsValue_append, ih]; rfl

/-- The value of digits is below the power of ten with as many zeros. -/
theorem digitsValue_lt {s : List Char} (h : ∀ c ∈ s, isDigit c = true) :
    digitsValue s < 10 ^ s.length := by
  induction s using List.reverseRecOn with
  | nil => simp
  | append_singleton s c ih =>
    have hfront := ih fun d hd => h d (List.mem_append_left _ hd)
    have hlast := toNat_sub_lt_of_isDigit (h c (by simp))
    rw [digitsValue_append, List.length_append, List.length_singleton, pow_succ]
    omega

/-- Division by a power of ten leaves the last digits out. -/
theorem digitsValue_div (s : List Char) {t : List Char} (h : ∀ c ∈ t, isDigit c = true) :
    digitsValue (s ++ t) / 10 ^ t.length = digitsValue s := by
  have hpos : 0 < 10 ^ t.length := Nat.pow_pos (by decide)
  rw [digitsValue_append_digits, Nat.add_comm, Nat.add_mul_div_right _ _ hpos,
    Nat.div_eq_of_lt (digitsValue_lt h), Nat.zero_add]

/-! ## Digits of a fixed width -/

/-- A number below a power of ten has no more digits than the power has zeros. -/
theorem length_natDigits_le {width n : Nat} (hwidth : 0 < width) (h : n < 10 ^ width) :
    (natDigits n).length ≤ width := by
  rw [natDigits_eq_toDigits]
  exact (Nat.length_toDigits_le_iff (by decide) hwidth).2 h

/-- A number that fits is written with exactly as many digits. -/
theorem length_paddedDigits {width n : Nat} (hwidth : 0 < width) (h : n < 10 ^ width) :
    (paddedDigits width n).length = width := by
  have := length_natDigits_le hwidth h
  simp only [paddedDigits, List.length_append, List.length_replicate]
  omega

theorem isDigit_of_mem_paddedDigits {width n : Nat} {c : Char} (h : c ∈ paddedDigits width n) :
    isDigit c = true := by
  rcases List.mem_append.1 h with hzero | hdigit
  · rw [List.eq_of_mem_replicate hzero]
    decide
  · rw [isDigit_eq]
    exact isDigit_of_mem_natDigits hdigit

/-- Zeros before a number do not change its value. -/
theorem digitsValue_paddedDigits (width n : Nat) : digitsValue (paddedDigits width n) = n := by
  rw [paddedDigits, digitsValue_append_digits, digitsValue_replicate_zero, digitsValue_natDigits]
  simp

end TableAccess.Text
