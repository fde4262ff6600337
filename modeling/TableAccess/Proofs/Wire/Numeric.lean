import Mathlib.Algebra.BigOperators.Fin
import Mathlib.Algebra.Order.Field.Power
import Mathlib.Algebra.Order.Floor.Semifield
import Mathlib.Data.Rat.Floor
import Mathlib.Tactic.Positivity
import Mathlib.Tactic.NormNum
import Mathlib.Tactic.Linarith
import TableAccess.Proofs.Text.Digits
import TableAccess.Wire.Numeric
/-!
# The numbers that numerics are read as

A numeric stands for the sum of its digits, each times the power of the base at its place.
The text that it is read as denotes this number, without the decimal places that are not
shown.  The digits that were sent may begin and end anywhere, so a place may lie before
the first of them, among them, or after the last one.

The number up to a place is found digit by digit: the number up to the next place is the
base times as much, and the digit at that place.  Both parts of the text follow this rule.

Main results:

- Theorem `floor_value`: the whole part of a number, from the place before and one digit.
- Theorem `digitsValue_append_groups`: groups of digits continue the number to a later place.
- Theorem `decode_exact`: which numerics are read, and as which texts.
-/

namespace TableAccess.Wire.Numeric

open Text

/-! ## The words of a numeric -/

/-- The word at an offset. -/
def wordAt (octets : Octets) (offset : Nat) : Nat :=
  readNat ((octets.drop offset).take 2)

/-- The number of digits that the header announces. -/
def announced (octets : Octets) : Nat :=
  wordAt octets 0

/-- The weight of the first digit. -/
def sentWeight (octets : Octets) : Int :=
  readInt ((octets.drop 2).take 2)

/-- The word for the sign. -/
def signWord (octets : Octets) : Nat :=
  wordAt octets 4

/-- The number of decimal places to show. -/
def sentScale (octets : Octets) : Nat :=
  wordAt octets 6

/-- The digits after the header, as many as it announces. -/
def sentDigits (octets : Octets) : List Nat :=
  (List.range (announced octets)).map fun i => wordAt octets (8 + 2 * i)

/-- Whether the header and all digits that it announces are there. -/
def IsComplete (octets : Octets) : Prop :=
  8 + 2 * announced octets ≤ octets.length

instance (octets : Octets) : Decidable (IsComplete octets) :=
  inferInstanceAs (Decidable (_ ≤ _))

theorem wordAt_drop (octets : Octets) (m n : Nat) :
    wordAt (octets.drop m) n = wordAt octets (m + n) := by
  rw [wordAt, wordAt, List.drop_drop]

theorem wordsOf_eq_cons {octets : Octets} (h : 2 ≤ octets.length) :
    wordsOf octets = wordAt octets 0 :: wordsOf (octets.drop 2) := by
  match octets, h with
  | high :: low :: r, _ => simp [wordsOf, wordAt, readNat]

/-- The words of a numeric begin with the four of its header. -/
theorem wordsOf_header {octets : Octets} (h : 8 ≤ octets.length) :
    wordsOf octets = announced octets :: wordAt octets 2 :: signWord octets ::
      sentScale octets :: wordsOf (octets.drop 8) := by
  rw [wordsOf_eq_cons (by omega), wordsOf_eq_cons (by rw [List.length_drop]; omega),
    wordsOf_eq_cons (by simp only [List.length_drop]; omega),
    wordsOf_eq_cons (by simp only [List.length_drop]; omega)]
  simp only [wordAt_drop, List.drop_drop, announced, signWord, sentScale]

/-- The first words stand at the even offsets. -/
theorem take_wordsOf {octets : Octets} {count : Nat} (h : 2 * count ≤ octets.length) :
    (wordsOf octets).take count = (List.range count).map fun i => wordAt octets (2 * i) := by
  induction count generalizing octets with
  | zero => rfl
  | succ count ih =>
    rw [wordsOf_eq_cons (by omega), List.take_succ_cons, ih (by rw [List.length_drop]; omega),
      List.range_succ_eq_map, List.map_cons, List.map_map]
    refine congrArg _ (List.map_congr_left fun i _ => ?_)
    rw [wordAt_drop]
    congr 1
    simp only [Nat.succ_eq_add_one]
    omega

/-- A word with a sign is an integer of two octets. -/
theorem signedWord_wordAt {octets : Octets} {offset : Nat} (h : offset + 2 ≤ octets.length) :
    signedWord (wordAt octets offset) = readInt ((octets.drop offset).take 2) := by
  have hlength : ((octets.drop offset).take 2).length = 2 := by
    rw [List.length_take, List.length_drop]
    omega
  have hread : readInt ((octets.drop offset).take 2) =
      if 2 * wordAt octets offset < 0x10000 then (wordAt octets offset : Int)
      else wordAt octets offset - 0x10000 := by
    rw [readInt, hlength]
    rfl
  rw [signedWord, hread]
  by_cases hsmall : wordAt octets offset < 0x8000
  · rw [if_pos hsmall, if_pos (by omega)]
  · rw [if_neg hsmall, if_neg (by omega)]

/-- What a complete numeric with a sign is read as. -/
def textOf (octets : Octets) : Sign → List Char
  | .positive => finiteText false (sentDigits octets) (sentWeight octets) (sentScale octets)
  | .negative => finiteText true (sentDigits octets) (sentWeight octets) (sentScale octets)
  | .nan => "NaN".toList
  | .infinity => "Infinity".toList
  | .negativeInfinity => "-Infinity".toList

/-- Octets that end too early are refused. -/
theorem decode?_of_not_isComplete {octets : Octets} (h : ¬ IsComplete octets) :
    decode? octets = none := by
  by_cases hheader : octets.length < 8
  · exact decode_short hheader
  have hshort : (wordsOf (octets.drop 8)).length < announced octets := by
    rw [wordsOf_length, List.length_drop]
    unfold IsComplete at h
    omega
  rw [decode?, wordsOf_header (by omega)]
  exact if_pos hshort

/-- All other octets are read by the word for their sign. -/
theorem decode?_of_isComplete {octets : Octets} (h : IsComplete octets) :
    decode? octets = (Sign.ofWord? (signWord octets)).map (textOf octets) := by
  unfold IsComplete at h
  have hlong : ¬ (wordsOf (octets.drop 8)).length < announced octets := by
    rw [wordsOf_length, List.length_drop]
    omega
  have hdigits : (wordsOf (octets.drop 8)).take (announced octets) = sentDigits octets := by
    rw [take_wordsOf (by rw [List.length_drop]; omega)]
    simp only [wordAt_drop, sentDigits]
  rw [decode?, wordsOf_header (by omega)]
  simp only [if_neg hlong, hdigits, signedWord_wordAt (show 2 + 2 ≤ octets.length by omega)]
  refine congrArg (Option.map · _) (funext fun sign => ?_)
  cases sign <;> rfl

/-! ## The number that digits stand for -/

/-- The number that digits stand for, when the first of them has the given weight. -/
def value (weight : Int) (digits : List Nat) : ℚ :=
  ∑ i ∈ Finset.range digits.length, (digits.getD i 0 : ℚ) * 10000 ^ (weight - i)

@[simp]
theorem value_nil (weight : Int) : value weight [] = 0 :=
  rfl

/-- The first digit counts by its weight, and the others by lower ones. -/
theorem value_cons (weight : Int) (d : Nat) (r : List Nat) :
    value weight (d :: r) = d * 10000 ^ weight + value (weight - 1) r := by
  rw [value, List.length_cons, Finset.sum_range_succ', add_comm]
  simp only [List.getD_cons_zero, List.getD_cons_succ, Nat.cast_zero, sub_zero, Nat.cast_add,
    Nat.cast_one, value, sub_sub, add_comm]

/-- Digits have no negative value. -/
theorem value_nonneg (weight : Int) (digits : List Nat) : 0 ≤ value weight digits := by
  unfold value
  positivity

/-- A greater weight is a multiplication by powers of the base. -/
theorem value_add (weight : Int) (digits : List Nat) (n : Nat) :
    value (weight + n) digits = value weight digits * 10000 ^ n := by
  simp only [value, Finset.sum_mul]
  refine Finset.sum_congr rfl fun i _ => ?_
  rw [add_sub_right_comm, zpow_add₀ (by norm_num), zpow_natCast, mul_assoc]

/-- Digits are less than one at the place before them. -/
theorem value_lt {digits : List Nat} (h : ∀ d ∈ digits, d < base) (weight : Int) :
    value weight digits < 10000 ^ (weight + 1) := by
  induction digits generalizing weight with
  | nil =>
    rw [value_nil]
    positivity
  | cons d r ih =>
    have hrest := ih (fun e he => h e (List.mem_cons_of_mem d he)) (weight - 1)
    have hd : (d : ℚ) ≤ 9999 := by
      have := h d List.mem_cons_self
      exact_mod_cast Nat.le_of_lt_succ this
    have hpos : (0 : ℚ) < 10000 ^ weight := by positivity
    rw [sub_add_cancel] at hrest
    rw [value_cons, zpow_add_one₀ (by norm_num)]
    nlinarith [mul_le_mul_of_nonneg_right hd hpos.le]

/-- Below the first weight there is no whole part. -/
theorem floor_value_of_neg {digits : List Nat} (h : ∀ d ∈ digits, d < base) {weight : Int}
    (hweight : weight < 0) : ⌊value weight digits⌋₊ = 0 := by
  refine Nat.floor_eq_zero.2 ((value_lt h weight).trans_le ?_)
  exact zpow_le_one_of_nonpos₀ (by norm_num) (by omega)

/-- The whole part is that of the first digit and that of the others. -/
theorem floor_value_cons (weight : Nat) (d : Nat) (r : List Nat) :
    ⌊value weight (d :: r)⌋₊ = d * 10000 ^ weight + ⌊value (weight - 1) r⌋₊ := by
  have hcast : (d : ℚ) * 10000 ^ (weight : Int) = (d * 10000 ^ weight : Nat) := by
    rw [zpow_natCast]
    push_cast
    rfl
  rw [value_cons, hcast, add_comm, Nat.floor_add_natCast (value_nonneg _ _), add_comm]

/-- The number up to a place is the base times the number up to the place before, and the digit
at the place. -/
theorem floor_value {digits : List Nat} (h : ∀ d ∈ digits, d < base) (weight : Int) :
    ⌊value weight digits⌋₊ = base * ⌊value (weight - 1) digits⌋₊ + digitAt digits weight := by
  induction digits generalizing weight with
  | nil => simp [digitAt]
  | cons d r ih =>
    have hrest : ∀ e ∈ r, e < base := fun e he => h e (List.mem_cons_of_mem d he)
    rcases lt_trichotomy weight 0 with hneg | rfl | hpos
    · rw [floor_value_of_neg h hneg, floor_value_of_neg h (by omega), digitAt, if_pos hneg,
        Nat.mul_zero]
    · have hfloor := floor_value_cons 0 d r
      rw [floor_value_of_neg hrest (by omega)] at hfloor
      rw [floor_value_of_neg h (by omega : (0 : Int) - 1 < 0)]
      simpa [digitAt] using hfloor
    · obtain ⟨n, rfl⟩ : ∃ n : Nat, weight = (n + 1 : Nat) := ⟨weight.toNat - 1, by omega⟩
      have hbefore : ((n + 1 : Nat) : Int) - 1 = n := by omega
      have hdigit : digitAt (d :: r) (n + 1 : Nat) = digitAt r n := by
        simp [digitAt, not_lt.2 (Int.natCast_nonneg n)]
        omega
      rw [floor_value_cons, hbefore, floor_value_cons, ih hrest, hdigit, base, pow_succ]
      ring

/-! ## Groups of four digits -/

/-- The digits from a place on, each written as a group of four. -/
def groups (digits : List Nat) (place : Int) (count : Nat) : List Char :=
  (List.range count).flatMap fun (i : Nat) => paddedDigits 4 (digitAt digits (place + i))

/-- One more group has the digit of the next place. -/
theorem groups_succ (digits : List Nat) (place : Int) (count : Nat) :
    groups digits place (count + 1) =
      groups digits place count ++ paddedDigits 4 (digitAt digits (place + count)) := by
  simp [groups, List.range_succ]

/-- The whole part is written without zeros in front, and then group by group. -/
theorem wholeText_eq (digits : List Nat) (weight : Nat) :
    wholeText digits weight = natDigits (digitAt digits 0) ++ groups digits 1 weight := by
  rw [wholeText, if_neg (by omega), Int.toNat_natCast, groups]
  simp only [Int.add_comm]

/-- The fraction is written group by group and cut at the scale. -/
theorem fractionText_eq (digits : List Nat) (weight : Int) (scale : Nat) :
    fractionText digits weight scale =
      (groups digits (weight + 1) ((scale + 3) / 4)).take scale :=
  rfl

theorem isDigit_of_mem_groups {digits : List Nat} {place : Int} {count : Nat} {c : Char}
    (h : c ∈ groups digits place count) : isDigit c = true := by
  obtain ⟨i, -, hc⟩ := List.mem_flatMap.1 h
  exact isDigit_of_mem_paddedDigits hc

/-- At every place there is a digit of the base, be it zero. -/
theorem digitAt_lt {digits : List Nat} (h : ∀ d ∈ digits, d < base) (place : Int) :
    digitAt digits place < base := by
  unfold digitAt
  split
  · decide
  · rw [List.getD_eq_getElem?_getD]
    cases hdigit : digits[place.toNat]? with
    | none => exact (by decide : 0 < base)
    | some d => exact h d (List.mem_of_getElem? hdigit)

/-- Every group has four digits. -/
theorem length_groups {digits : List Nat} (h : ∀ d ∈ digits, d < base) (place : Int)
    (count : Nat) : (groups digits place count).length = 4 * count := by
  induction count with
  | zero => rfl
  | succ count ih =>
    rw [groups_succ, List.length_append, ih,
      length_paddedDigits (by decide) (digitAt_lt h _)]
    omega

/-- Groups of digits after a number up to a place continue it to a later place. -/
theorem digitsValue_append_groups {digits : List Nat} (h : ∀ d ∈ digits, d < base)
    {weight : Int} {s : List Char} (hs : digitsValue s = ⌊value weight digits⌋₊) (count : Nat) :
    digitsValue (s ++ groups digits (weight + 1) count) =
      ⌊value (weight + count) digits⌋₊ := by
  induction count with
  | zero => simpa [groups] using hs
  | succ count ih =>
    have hplace : weight + (count + 1 : Nat) - 1 = weight + count := by omega
    have hnext : weight + 1 + count = weight + (count + 1 : Nat) := by omega
    rw [groups_succ, ← List.append_assoc, digitsValue_append_digits, ih,
      length_paddedDigits (by decide) (digitAt_lt h _), digitsValue_paddedDigits,
      floor_value h (weight + (count + 1 : Nat)), hplace, hnext, base]
    ring

/-! ## The two parts of the text -/

theorem isDigit_of_mem_wholeText {digits : List Nat} {weight : Int} {c : Char}
    (h : c ∈ wholeText digits weight) : isDigit c = true := by
  by_cases hweight : weight < 0
  · rw [wholeText, if_pos hweight, List.mem_singleton] at h
    rw [h]
    decide
  · obtain ⟨n, rfl⟩ := Int.eq_ofNat_of_zero_le (not_lt.1 hweight)
    rw [wholeText_eq, List.mem_append] at h
    rcases h with hfirst | hgroups
    · rw [isDigit_eq]
      exact isDigit_of_mem_natDigits hfirst
    · exact isDigit_of_mem_groups hgroups

/-- The whole part is written even if it is zero. -/
theorem wholeText_ne_nil (digits : List Nat) (weight : Int) : wholeText digits weight ≠ [] := by
  by_cases hweight : weight < 0
  · simp [wholeText, hweight]
  · simp [wholeText, hweight, natDigits_ne_nil]

/-- The digits before the point are the whole part of the number. -/
theorem digitsValue_wholeText {digits : List Nat} (h : ∀ d ∈ digits, d < base) (weight : Int) :
    digitsValue (wholeText digits weight) = ⌊value weight digits⌋₊ := by
  by_cases hweight : weight < 0
  · rw [floor_value_of_neg h hweight, wholeText, if_pos hweight]
    rfl
  · obtain ⟨n, rfl⟩ := Int.eq_ofNat_of_zero_le (not_lt.1 hweight)
    have hfirst : digitsValue (natDigits (digitAt digits 0)) = ⌊value 0 digits⌋₊ := by
      rw [digitsValue_natDigits, floor_value h 0, floor_value_of_neg h (by omega)]
      simp
    have hall := digitsValue_append_groups h hfirst n
    rw [zero_add, zero_add] at hall
    rw [wholeText_eq, hall]

/-- Only a first digit that is zero is written with a zero in front of others. -/
theorem head?_wholeText {digits : List Nat} {weight : Int}
    (h : weight ≤ 0 ∨ digits.getD 0 0 ≠ 0) :
    wholeText digits weight = ['0'] ∨ (wholeText digits weight).head? ≠ some '0' := by
  by_cases hweight : weight < 0
  · exact .inl (by rw [wholeText, if_pos hweight])
  obtain ⟨n, rfl⟩ := Int.eq_ofNat_of_zero_le (not_lt.1 hweight)
  have hdigit : digitAt digits 0 = digits.getD 0 0 := rfl
  rw [wholeText_eq, hdigit]
  by_cases hzero : digits.getD 0 0 = 0
  · have hn : n = 0 := by
      rcases h with hn | hne
      · omega
      · exact absurd hzero hne
    left
    rw [hzero, hn, natDigits, if_pos (by decide)]
    rfl
  · right
    have hhead := head?_natDigits_ne hzero
    rwa [List.head?_append_of_ne_nil _ (natDigits_ne_nil _)]

theorem isDigit_of_mem_fractionText {digits : List Nat} {weight : Int} {scale : Nat} {c : Char}
    (h : c ∈ fractionText digits weight scale) : isDigit c = true :=
  isDigit_of_mem_groups (List.mem_of_mem_take h)

/-- The fraction has as many digits as the scale says. -/
theorem length_fractionText {digits : List Nat} (h : ∀ d ∈ digits, d < base) (weight : Int)
    (scale : Nat) : (fractionText digits weight scale).length = scale := by
  rw [fractionText_eq, List.length_take, length_groups h]
  omega

/-- The digits before and after the point are the number up to the last place that is shown. -/
theorem digitsValue_append_fractionText {digits : List Nat} (h : ∀ d ∈ digits, d < base)
    (weight : Int) (scale : Nat) :
    digitsValue (wholeText digits weight ++ fractionText digits weight scale) =
      ⌊value weight digits * 10 ^ scale⌋₊ := by
  let count := (scale + 3) / 4
  have hcount : scale ≤ 4 * count := by omega
  have hall := digitsValue_append_groups h (digitsValue_wholeText h weight) count
  have hcut := List.take_append_drop scale (groups digits (weight + 1) count)
  have hlength : ((groups digits (weight + 1) count).drop scale).length = 4 * count - scale := by
    rw [List.length_drop, length_groups h]
  rw [← hcut, ← List.append_assoc] at hall
  have hshown := digitsValue_div
    (wholeText digits weight ++ (groups digits (weight + 1) count).take scale)
    (t := (groups digits (weight + 1) count).drop scale)
    fun c hc => isDigit_of_mem_groups (List.mem_of_mem_drop hc)
  have hpower : (10000 : ℚ) ^ count = 10 ^ scale * (10 ^ (4 * count - scale) : Nat) := by
    push_cast
    rw [← pow_add, Nat.add_sub_cancel' hcount, pow_mul]
    norm_num
  rw [fractionText_eq, ← hshown, hall, hlength, ← Nat.floor_div_natCast, value_add, hpower,
    ← mul_assoc, mul_div_assoc, div_self (by positivity), mul_one]

/-! ## Reading -/

/-- A decimal number as a text: a minus if it is negative, the digits before the point, and a
point and the digits after it if there are any. -/
def decimalText (negative : Bool) (whole fraction : List Char) : List Char :=
  (if negative then ['-'] else []) ++ whole ++ if fraction = [] then [] else '.' :: fraction

/-- The number that such a text denotes. -/
def decimalValue (negative : Bool) (whole fraction : List Char) : ℚ :=
  (if negative then -1 else 1) * (digitsValue (whole ++ fraction) / 10 ^ fraction.length)

/-- A number that is not negative, cut off after some decimal places. -/
def truncated (scale : Nat) (x : ℚ) : ℚ :=
  ⌊x * 10 ^ scale⌋₊ / 10 ^ scale

/-- A finite numeric is a decimal text of its two parts. -/
theorem finiteText_eq {digits : List Nat} (h : ∀ d ∈ digits, d < base) (negative : Bool)
    (weight : Int) (scale : Nat) :
    finiteText negative digits weight scale =
      decimalText negative (wholeText digits weight) (fractionText digits weight scale) := by
  have hempty : scale = 0 ↔ fractionText digits weight scale = [] := by
    rw [← List.length_eq_zero_iff, length_fractionText h]
  simp only [finiteText, decimalText, hempty]

/-- Only five words stand for a sign. -/
theorem ofWord?_eq_none_iff (word : Nat) :
    Sign.ofWord? word = none ↔ word ∉ [0x0000, 0x4000, 0xC000, 0xD000, 0xF000] := by
  simp only [Sign.ofWord?, List.mem_cons, List.not_mem_nil, or_false]
  grind

/-- Numerics are read exactly.  A numeric is not read exactly if a word of its header or a digit
that it announces is missing or its sign is unknown.  The three special signs are read as their
names.  Otherwise, if all digits are below the base, the text has a minus exactly for the
negative sign, at least one digit before the point, and as many after it as the header says; it
denotes the number that the digits stand for with the sign, cut off after that many decimal
places; and there is no needless zero in front unless the first digit is zero, or there is none,
and it stands before others. -/
theorem decode_exact (octets : Octets) :
    (decode? octets = none ↔ ¬ IsComplete octets ∨
      signWord octets ∉ [0x0000, 0x4000, 0xC000, 0xD000, 0xF000]) ∧
    (IsComplete octets →
      (signWord octets = 0xC000 → decode? octets = some "NaN".toList) ∧
      (signWord octets = 0xD000 → decode? octets = some "Infinity".toList) ∧
      (signWord octets = 0xF000 → decode? octets = some "-Infinity".toList) ∧
      ∀ negative : Bool, signWord octets = (if negative then 0x4000 else 0x0000) →
        (∀ d ∈ sentDigits octets, d < 10000) →
        ∃ whole fraction, decode? octets = some (decimalText negative whole fraction) ∧
          whole ≠ [] ∧ (∀ c ∈ whole ++ fraction, isDigit c = true) ∧
          fraction.length = sentScale octets ∧
          decimalValue negative whole fraction = (if negative then -1 else 1) *
            truncated (sentScale octets) (value (sentWeight octets) (sentDigits octets)) ∧
          (sentWeight octets ≤ 0 ∨ (sentDigits octets).getD 0 0 ≠ 0 →
            whole = ['0'] ∨ whole.head? ≠ some '0')) := by
  constructor
  · by_cases hcomplete : IsComplete octets
    · rw [decode?_of_isComplete hcomplete, Option.map_eq_none_iff, ofWord?_eq_none_iff]
      simp [hcomplete]
    · simp [decode?_of_not_isComplete hcomplete, hcomplete]
  · intro hcomplete
    rw [decode?_of_isComplete hcomplete]
    refine ⟨fun hsign => ?_, fun hsign => ?_, fun hsign => ?_, fun negative hsign hdigits => ?_⟩
    · rw [hsign]
      rfl
    · rw [hsign]
      rfl
    · rw [hsign]
      rfl
    · refine ⟨wholeText (sentDigits octets) (sentWeight octets),
        fractionText (sentDigits octets) (sentWeight octets) (sentScale octets), ?_,
        wholeText_ne_nil _ _, ?_, length_fractionText hdigits _ _, ?_, head?_wholeText⟩
      · rw [← finiteText_eq hdigits, hsign]
        cases negative <;> rfl
      · intro c hc
        rcases List.mem_append.1 hc with hwhole | hfraction
        · exact isDigit_of_mem_wholeText hwhole
        · exact isDigit_of_mem_fractionText hfraction
      · rw [decimalValue, digitsValue_append_fractionText hdigits, length_fractionText hdigits,
          truncated]

/-- The digits 1, 2345 and 6700 with the weight 1 and a minus, shown with one decimal place. -/
theorem decode_exact_cut :
    let octets : Octets := [0, 3, 0, 1, 64, 0, 0, 1, 0, 1, 9, 41, 26, 44]
    IsComplete octets ∧ signWord octets = 0x4000 ∧ sentDigits octets = [1, 2345, 6700] ∧
      ∃ whole fraction, decode? octets = some (decimalText true whole fraction) ∧
        fraction.length = 1 ∧
        decimalValue true whole fraction = -1 * truncated 1 (value 1 [1, 2345, 6700]) := by
  intro octets
  have hcomplete : IsComplete octets := by decide
  have hdigits : sentDigits octets = [1, 2345, 6700] := by decide
  obtain ⟨whole, fraction, htext, -, -, hlength, hvalue, -⟩ :=
    ((decode_exact octets).2 hcomplete).2.2.2 true (by decide) (by rw [hdigits]; decide)
  rw [hdigits] at hvalue
  exact ⟨hcomplete, by decide, hdigits, whole, fraction, htext, hlength, hvalue⟩

end TableAccess.Wire.Numeric
