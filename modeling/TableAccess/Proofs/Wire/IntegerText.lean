import TableAccess.Proofs.Text.Blank
import TableAccess.Proofs.Text.Integer
import TableAccess.Wire.Parameter
/-!
# Integer texts as parameters

A text that is an integer may be sent as a parameter of nearly every type, and each type has a
reader of its own for it.  Here every reader is given such a text: what it reads, or that it
reads nothing.

Main results:

- Theorem `Binary.read_of_isInteger`: as a floating-point number, where zeros keep their sign.
- Theorem `Decimal.read_of_isInteger`: as a decimal.
- Theorem `Document.ofText?_of_isInteger`: as a document, if it is one.
- Theorems `readDate_of_isInteger`, `readClock_of_isInteger`, `readMoment_of_isInteger` and
  `readOffsetMoment_of_isInteger`: as a date or a time of day it is not read.
-/

namespace TableAccess

open Text

/-! ## Characters of integers -/

/-- Whether a character may stand in the text of an integer. -/
def isIntegerChar (c : Char) : Bool :=
  c == '+' || c == '-' || isDigit c

/-- Signs and digits have no letter case. -/
theorem map_lowerAscii_of_all {s : List Char} (h : ∀ c ∈ s, isIntegerChar c = true) :
    s.map Binary.lowerAscii = s := by
  have hall : digitChars.all (fun d => Binary.lowerAscii d == d) = true := by decide
  conv_rhs => rw [← List.map_id s]
  refine List.map_congr_left fun c hc => ?_
  have hchar := h c hc
  simp only [isIntegerChar, Bool.or_eq_true, beq_iff_eq] at hchar
  rcases hchar with (rfl | rfl) | hdigit
  · rfl
  · rfl
  · exact eq_of_beq (test_of_isDigit hall hdigit)

theorem isIntegerChar_of_isDigit {c : Char} (h : isDigit c = true) : isIntegerChar c = true := by
  simp [isIntegerChar, h]

variable {s digits : List Char} {negative : Bool}

/-- An integer has nothing but signs and digits. -/
theorem Text.IsInteger.isIntegerChar (h : IsInteger s negative digits) :
    ∀ c ∈ s, isIntegerChar c = true := by
  intro c hc
  rcases h.mem_cases hc with rfl | rfl | hdigit
  · rfl
  · rfl
  · exact isIntegerChar_of_isDigit hdigit

/-! ## Floating-point numbers -/

namespace Binary

/-- Digits alone are a decimal with no places after the point. -/
theorem readDecimal_of_digits (h : ∀ c ∈ digits, isDigit c = true) (nonempty : digits ≠ []) :
    readDecimal digits = some (digitsValue digits, 0) := by
  rw [readDecimal, spanDigits_of_digits h]
  simp [nonempty, readExponent]

/-- A whole number is rounded like the integer, but zero keeps its sign. -/
theorem ofDecimal_of_lt (f : Format) (negative : Bool) {n : Nat} (h : n < 10 ^ 20) :
    ofDecimal f negative n 0 =
      if n = 0 then zero f negative else ofInt f (signedValue negative n) := by
  unfold ofDecimal
  split
  · rfl
  · rename_i hn
    have hlength := length_natDigits_le (by decide : 0 < 20) h
    have hfar : farExponent = 400 := rfl
    have hpow : Nat.pow 10 (0 : Int).toNat = 1 := rfl
    have hlarge : ¬ farExponent < 0 + ((natDigits n).length : Int) := by
      rw [hfar]
      omega
    have hsmall : ¬ 0 + ((natDigits n).length : Int) < -farExponent := by
      rw [hfar]
      omega
    simp only [if_neg hlarge, if_neg hsmall, if_pos (Int.le_refl 0)]
    rw [hpow, Nat.mul_one, ofInt, natAbs_signedValue, decide_signedValue_neg negative hn]

/-- An integer is read as the floating-point number nearest to it, except that a zero keeps its
sign. -/
theorem read_of_isInteger (f : Format) (h : IsInteger s negative digits)
    (small : digitsValue digits < 10 ^ 20) :
    read f s = some (if digitsValue digits = 0 then zero f negative
      else ofInt f (signedValue negative (digitsValue digits))) := by
  obtain ⟨c, r, hcons⟩ := List.exists_cons_of_ne_nil h.nonempty
  have hword : ∀ (d : Char) (w : List Char), isDigit d = false →
      String.ofList digits ≠ String.ofList (d :: w) := by
    intro d w hd heq
    have hdigits := String.ofList_injective heq
    exact ne_of_isDigit (h.digit d (by simp [hdigits])) hd rfl
  have hnan : String.ofList digits ≠ "nan" := hword 'n' ['a', 'n'] (by decide)
  have hinf : String.ofList digits ≠ "inf" := hword 'i' ['n', 'f'] (by decide)
  have hinfinity : String.ofList digits ≠ "infinity" :=
    hword 'i' ['n', 'f', 'i', 'n', 'i', 't', 'y'] (by decide)
  unfold read
  simp only [h.takeSign_eq,
    map_lowerAscii_of_all fun c hc => isIntegerChar_of_isDigit (h.digit c hc)]
  rw [if_neg hnan, if_neg (by simp [hinf, hinfinity]), readDecimal_of_digits h.digit h.nonempty,
    Option.map_some, ofDecimal_of_lt f negative small]

end Binary

/-! ## Decimals -/

namespace Decimal

/-- Digits alone are read as the number that they write. -/
theorem readDigits_of_digits (negative : Bool) (h : ∀ c ∈ digits, isDigit c = true)
    {started : Bool} (hstarted : started = true ∨ digits ≠ []) {coefficient n : Nat}
    (value : digits.foldl (fun value c => 10 * value + (c.toNat - 48)) coefficient = n)
    (small : n < limit) :
    readDigits negative false started coefficient 0 digits = some ⟨negative, n, 0⟩ := by
  induction digits generalizing started coefficient with
  | nil =>
    have hfirst : started = true := hstarted.resolve_right (by simp)
    rw [readDigits, if_pos hfirst, ← value]
    rfl
  | cons c r ih =>
    have hdigit : digitValue? c = some (c.toNat - 48) := if_pos (h c List.mem_cons_self)
    have hlonger : 10 * coefficient + (c.toNat - 48) < limit := by
      have hle := foldl_digits_le (10 * coefficient + (c.toNat - 48)) r
      rw [List.foldl_cons] at value
      omega
    rw [readDigits, hdigit]
    simp only [hlonger, Bool.false_eq_true, false_and, not_false_eq_true, and_self, if_true,
      if_false]
    exact ih (fun d hd => h d (List.mem_cons_of_mem c hd)) (.inl rfl) value

/-- An integer is read as the decimal with its sign. -/
theorem read_of_isInteger (h : IsInteger s negative digits) (small : digitsValue digits < limit) :
    read s = some ⟨negative, digitsValue digits, 0⟩ := by
  have hpositional : readPositional s = some ⟨negative, digitsValue digits, 0⟩ := by
    rw [readPositional, h.takeSign_eq]
    exact readDigits_of_digits negative h.digit (.inr h.nonempty) rfl small
  rw [read, hpositional, Option.some_or]

end Decimal

/-- Zero of either sign is sent like the integer zero, and every other number with its sign. -/
theorem Wire.Numeric.send_signed (negative : Bool) (n : Nat) :
    Numeric.send ⟨negative, n, 0⟩ = Numeric.send (Decimal.ofInt (signedValue negative n)) := by
  by_cases hn : n = 0
  · rw [hn, send_zero]
    cases negative <;> rfl
  · rw [Decimal.ofInt, natAbs_signedValue, decide_signedValue_neg negative hn]

/-! ## Truth values -/

/-- An integer that is read as a truth value is read as whether it is not zero. -/
theorem Wire.readBool_of_isInteger {s : String} (h : IsInteger (trimChars s.toList) negative digits)
    {b : Bool} (read : readBool s = some b) :
    b = decide (signedValue negative (digitsValue digits) ≠ 0) := by
  have hall := List.all_eq_true.2 h.isIntegerChar
  have htrue : ∀ w ∈ trueWords, w.toList.all isIntegerChar = true → w = "1" := by decide
  have hfalse : ∀ w ∈ falseWords, w.toList.all isIntegerChar = true → w = "0" := by decide
  have hsign := h.takeSign_eq
  unfold readBool at read
  simp only [map_lowerAscii_of_all h.isIntegerChar] at read
  split at read
  · rename_i hword
    obtain rfl := Option.some.inj read
    have hone := htrue _ hword (by rwa [String.toList_ofList])
    rw [← String.toList_inj, String.toList_ofList] at hone
    rw [hone] at hsign
    obtain ⟨rfl, rfl⟩ := Prod.mk.inj hsign
    rfl
  · split at read
    · rename_i hword
      obtain rfl := Option.some.inj read
      have hzero := hfalse _ hword (by rwa [String.toList_ofList])
      rw [← String.toList_inj, String.toList_ofList] at hzero
      rw [hzero] at hsign
      obtain ⟨rfl, rfl⟩ := Prod.mk.inj hsign
      rfl
    · cases read

/-! ## Documents -/

namespace Document

/-- Digits are gathered up to what is none, while there is room for them. -/
theorem gather_of_digits (h : ∀ c ∈ digits, isDigit c = true) {rest : List Char}
    (hrest : ∀ c, rest.head? = some c → isDigit c = false) {coefficient count n : Nat}
    (value : digits.foldl (fun value c => 10 * value + (c.toNat - 48)) coefficient = n)
    (small : n < coefficientLimit) :
    gather coefficient count (digits ++ rest) = (n, count + digits.length, rest) := by
  induction digits generalizing coefficient count with
  | nil =>
    rw [List.foldl_nil] at value
    rw [value, List.nil_append, List.length_nil, Nat.add_zero]
    cases rest with
    | nil => rfl
    | cons c r =>
      have hnone : digitValue? c = none := if_neg (by simp [hrest c rfl])
      simp only [gather, hnone]
  | cons c r ih =>
    have hdigit : digitValue? c = some (c.toNat - 48) := if_pos (h c List.mem_cons_self)
    have hroom : 10 * coefficient + (c.toNat - 48) < coefficientLimit := by
      have hle := foldl_digits_le (10 * coefficient + (c.toNat - 48)) r
      rw [List.foldl_cons] at value
      omega
    simp only [List.cons_append, gather, hdigit, if_pos hroom]
    rw [ih (fun d hd => h d (List.mem_cons_of_mem c hd)) value, List.length_cons]
    congr 2
    omega

/-- A number without a point and an exponent after its digits is whole. -/
theorem readUnsigned_of_digits (negative : Bool) (h : ∀ c ∈ digits, isDigit c = true)
    (small : digitsValue digits < coefficientLimit) {rest : List Char}
    (hrest : ∀ c, rest.head? = some c → isBlank c = true) {d : Document} {after : List Char}
    (read : readUnsigned negative (digits ++ rest) = some (d, after)) :
    d = ofWhole negative (digitsValue digits) := by
  have hend : ∀ c, rest.head? = some c → isDigit c = false :=
    fun c hc => isDigit_of_isBlank (hrest c hc)
  have hne : ∀ c, isBlank c = false → rest.head? ≠ some c := by
    intro c hc hhead
    rw [hrest c hhead] at hc
    cases hc
  have hspan : spanDigits rest = ([], rest) :=
    spanDigits_append (fun c hc => absurd hc List.not_mem_nil) hend
  unfold readUnsigned at read
  rw [gather_of_digits h hend rfl small] at read
  simp only [hspan] at read
  split at read
  · cases read
  · split at read
    · rename_i r
      exact absurd rfl (hne '.' (by decide))
    · rw [if_pos (by simp [hne 'e' (by decide), hne 'E' (by decide)])] at read
      exact (Prod.mk.inj (Option.some.inj read)).1.symm

/-- Text that begins with neither a digit nor a minus is no number. -/
theorem readNumber_eq_none {c : Char} (hdigit : isDigit c = false) (hminus : c ≠ '-')
    (r : List Char) : readNumber (c :: r) = none := by
  have hnone : digitValue? c = none := if_neg (by simp [hdigit])
  unfold readNumber
  split
  · rename_i heq
    exact absurd (List.cons.inj heq).1 hminus
  · simp only [readUnsigned, gather, hnone]
    rfl

/-- Space is skipped up to an integer, or up to a blank that is no space. -/
theorem skipSpace_append {lead rest : List Char} (hlead : ∀ c ∈ lead, isBlank c = true)
    (hrest : ∀ c, rest.head? = some c → isBlank c = false) :
    skipSpace (lead ++ rest) = rest ∨ ∃ c r, skipSpace (lead ++ rest) = c :: r ∧
      isBlank c = true := by
  have hspace : ∀ c, isSpace c = true → isBlank c = true := by
    intro c hc
    simp only [isSpace, Bool.or_eq_true, beq_iff_eq] at hc
    rcases hc with ((rfl | rfl) | rfl) | rfl <;> decide
  induction lead with
  | nil =>
    left
    cases rest with
    | nil => rfl
    | cons c r =>
      refine List.dropWhile_cons_of_neg fun hc => ?_
      have hblank := hspace c hc
      rw [hrest c rfl] at hblank
      cases hblank
  | cons c r ih =>
    by_cases hc : isSpace c = true
    · have hskip : skipSpace (c :: r ++ rest) = skipSpace (r ++ rest) :=
        List.dropWhile_cons_of_pos hc
      rw [hskip]
      exact ih fun d hd => hlead d (List.mem_cons_of_mem c hd)
    · exact .inr ⟨c, r ++ rest, List.dropWhile_cons_of_neg hc, hlead c List.mem_cons_self⟩

/-- A value that begins like none of the others is a number. -/
theorem readValue_eq_readNumber (fuel depth : Nat) {s r : List Char} {c : Char}
    (skipped : skipSpace s = c :: r) (other : c ∉ ['n', 't', 'f', '"', '[', '{']) :
    readValue (fuel + 1) depth s = readNumber (c :: r) := by
  simp only [List.mem_cons, List.not_mem_nil, or_false, not_or] at other
  obtain ⟨hn, ht, hf, hquote, harray, hobject⟩ := other
  rw [readValue, skipped]
  split
  · rename_i heq
    exact absurd (List.cons.inj heq).1 hn
  · rename_i heq
    exact absurd (List.cons.inj heq).1 ht
  · rename_i heq
    exact absurd (List.cons.inj heq).1 hf
  · rename_i heq
    exact absurd (List.cons.inj heq).1 hquote
  · rename_i heq
    exact absurd (List.cons.inj heq).1 harray
  · rename_i heq
    exact absurd (List.cons.inj heq).1 hobject
  · rfl

/-- An integer is read as a whole number of a document. -/
theorem readNumber_of_isInteger (h : IsInteger s negative digits)
    (small : digitsValue digits < coefficientLimit) {rest : List Char}
    (hrest : ∀ c, rest.head? = some c → isBlank c = true) {d : Document} {after : List Char}
    (read : readNumber (s ++ rest) = some (d, after)) :
    d = ofWhole negative (digitsValue digits) := by
  obtain ⟨⟨sign, hsign, rfl⟩, hne, hdigit⟩ := h
  rw [List.append_assoc] at read
  cases hsign with
  | none =>
    obtain ⟨c, r, rfl⟩ := List.exists_cons_of_ne_nil hne
    have hc := ne_of_isDigit (hdigit c List.mem_cons_self) (by decide : isDigit '-' = false)
    have hnumber : readNumber (c :: r ++ rest) = readUnsigned false (c :: r ++ rest) := by
      unfold readNumber
      split
      · rename_i heq
        exact absurd (List.cons.inj heq).1 hc
      · rfl
    rw [List.nil_append, hnumber] at read
    exact readUnsigned_of_digits false hdigit small hrest read
  | plus =>
    rw [List.singleton_append, readNumber_eq_none (by decide) (by decide)] at read
    cases read
  | minus => exact readUnsigned_of_digits true hdigit small hrest read

/-- An integer that is read as a document is read as a whole number. -/
theorem ofText?_of_isInteger {s : String} (h : IsInteger (trimChars s.toList) negative digits)
    (small : digitsValue digits < coefficientLimit) {d : Document} (read : ofText? s = some d) :
    d = ofWhole negative (digitsValue digits) := by
  have hnone : ∀ c, isBlank c = true → ∀ e, isBlank e = false → c ≠ e := by
    rintro c hc e he rfl
    rw [hc] at he
    cases he
  obtain ⟨⟨lead, trail, htext, hlead, htrail⟩, hfirst, -⟩ := isTrimmed_trimChars s.toList
  obtain ⟨c, r, hcons⟩ : ∃ c r, trimChars s.toList = c :: r := by
    refine List.exists_cons_of_ne_nil fun hempty => h.nonempty ?_
    have hsign := h.takeSign_eq
    rw [hempty] at hsign
    exact (Prod.mk.inj hsign).2.symm
  have hread : ∃ after,
      readValue (2 * s.toList.length + 1 + 1) greatestDepth s.toList = some (d, after) := by
    unfold ofText? Document.read at read
    obtain ⟨⟨d', after⟩, hvalue, hend⟩ := Option.bind_eq_some_iff.1 read
    simp only at hend
    split at hend
    · exact ⟨after, Option.some.inj hend ▸ hvalue⟩
    · cases hend
  obtain ⟨after, hvalue⟩ := hread
  have hhead : ∀ e, (trimChars s.toList ++ trail).head? = some e → isBlank e = false := by
    rw [hcons]
    exact fun e he => hfirst e (by rw [hcons]; exact he)
  have hskipped := skipSpace_append hlead hhead
  rw [← List.append_assoc, ← htext] at hskipped
  rcases hskipped with hskipped | ⟨e, t, hskipped, hblank⟩
  · have hchar := h.isIntegerChar c (by simp [hcons])
    have hother : c ∉ ['n', 't', 'f', '"', '[', '{'] := by
      intro hmem
      have hall : ['n', 't', 'f', '"', '[', '{'].all (fun e => !isIntegerChar e) = true := by
        decide
      have hnot := List.all_eq_true.1 hall c hmem
      rw [hchar] at hnot
      cases hnot
    have hfront : skipSpace s.toList = c :: (r ++ trail) := by
      rw [hskipped, hcons]
      rfl
    rw [readValue_eq_readNumber _ _ hfront hother, ← List.cons_append, ← hcons] at hvalue
    exact readNumber_of_isInteger h small
      (fun e he => htrail e (List.mem_of_mem_head? he)) hvalue
  · have hother : e ∉ ['n', 't', 'f', '"', '[', '{'] := by
      intro hmem
      have hall : ['n', 't', 'f', '"', '[', '{'].all (fun e => !isBlank e) = true := by decide
      have hnot := List.all_eq_true.1 hall e hmem
      rw [hblank] at hnot
      cases hnot
    rw [readValue_eq_readNumber _ _ hskipped hother,
      readNumber_eq_none (isDigit_of_isBlank hblank) (hnone e hblank '-' (by decide))] at hvalue
    cases hvalue

end Document

/-! ## Dates and times of day -/

namespace Calendar

/-- A character that is no digit is missed among digits. -/
theorem expect_of_digits (h : ∀ c ∈ digits, isDigit c = true) {d : Char}
    (hd : isDigit d = false) : expect d digits = none := by
  cases digits with
  | nil => rfl
  | cons c r => exact if_neg (ne_of_isDigit (h c List.mem_cons_self) hd)

theorem dropBlanks_of_digits (h : ∀ c ∈ digits, isDigit c = true) :
    dropBlanks digits = digits := by
  cases digits with
  | nil => rfl
  | cons c r => exact dropBlanks_cons_of_nonblank (isBlank_of_isDigit (h c List.mem_cons_self)) r

/-- What is left after digits were taken is digits. -/
theorem isDigit_of_mem_takeDigits (limit : Nat) (h : ∀ c ∈ digits, isDigit c = true) :
    ∀ c ∈ (takeDigits limit digits).2, isDigit c = true := by
  intro c hc
  refine h c ?_
  rw [← takeDigits_append limit digits]
  exact List.mem_append_right _ hc

/-- Nothing but digits is left after a number at the front of an integer. -/
theorem readNumber_of_isInteger (width : Nat) (h : IsInteger s negative digits) :
    ∀ p, readNumber width s = some p → ∀ c ∈ p.2, isDigit c = true := by
  obtain ⟨⟨sign, hsign, rfl⟩, hne, hdigit⟩ := h
  intro p hp
  unfold readNumber at hp
  cases hsign with
  | none =>
    rw [List.nil_append, dropBlanks_of_digits hdigit] at hp
    simp only at hp
    split at hp
    · cases hp
    · obtain rfl := Option.some.inj hp
      exact isDigit_of_mem_takeDigits width hdigit
  | plus => cases width <;> cases hp
  | minus => cases width <;> cases hp

/-- A year leaves digits of an integer. -/
theorem readYear_of_isInteger (h : IsInteger s negative digits) :
    ∀ p, readYear s = some p → ∀ c ∈ p.2, isDigit c = true := by
  intro p hp
  have hsigned : ∀ negative, readYear.signed negative digits = some p →
      ∀ c ∈ p.2, isDigit c = true := by
    intro negative hread
    rw [readYear.signed, spanDigits_of_digits h.digit] at hread
    simp only at hread
    split at hread
    · cases hread
    · obtain rfl := Option.some.inj hread
      simp
  have hnumber := readNumber_of_isInteger 4 h
  obtain ⟨⟨sign, hsign, rfl⟩, hne, hdigit⟩ := h
  cases hsign with
  | none =>
    rw [List.nil_append] at hp hnumber
    unfold readYear at hp
    rw [dropBlanks_of_digits hdigit] at hp
    obtain ⟨c, r, rfl⟩ := List.exists_cons_of_ne_nil hne
    have hc := hdigit c List.mem_cons_self
    split at hp
    · rename_i heq
      exact absurd (List.cons.inj heq).1 (ne_of_isDigit hc (by decide))
    · rename_i heq
      exact absurd (List.cons.inj heq).1 (ne_of_isDigit hc (by decide))
    · obtain ⟨q, hq, rfl⟩ := Option.map_eq_some_iff.1 hp
      exact hnumber q hq
  | plus => exact hsigned false hp
  | minus => exact hsigned true hp

/-- An integer has no parts of a date. -/
theorem readDateParts_of_isInteger (between : Bool) (h : IsInteger s negative digits) :
    readDateParts between s = none := by
  unfold readDateParts
  cases hyear : readYear s with
  | none => rfl
  | some p =>
    have hrest := readYear_of_isInteger h p hyear
    have hexpect : expect '-' (if between then dropBlanks p.2 else p.2) = none := by
      rw [dropBlanks_of_digits hrest, ite_self, expect_of_digits hrest (by decide)]
    simp only [Option.bind_eq_bind, Option.bind_some, hexpect, Option.bind_none]

/-- An integer is no date. -/
theorem readDate_of_isInteger (h : IsInteger s negative digits) : readDate s = none := by
  rw [readDate, readDateParts_of_isInteger true h]
  rfl

theorem readClock_of_isInteger (h : IsInteger s negative digits) : readClock s = none := by
  unfold readClock
  cases hhour : readBounded 2 0 23 s with
  | none => rfl
  | some p =>
    have hrest : ∀ c ∈ p.2, isDigit c = true := by
      unfold readBounded at hhour
      obtain ⟨⟨n, rest⟩, hq, hbound⟩ := Option.bind_eq_some_iff.1 hhour
      simp only at hbound
      split at hbound
      · obtain rfl := Option.some.inj hbound
        exact readNumber_of_isInteger 2 h (n, rest) hq
      · cases hbound
    have hexpect : expect ':' (dropBlanks p.2) = none := by
      rw [dropBlanks_of_digits hrest, expect_of_digits hrest (by decide)]
    simp only [Option.bind_eq_bind, Option.bind_some, hexpect, Option.bind_none]

theorem readMoment_of_isInteger (h : IsInteger s negative digits) : readMoment s = none := by
  rw [readMoment, readMomentWith, readMomentWith, readDateParts_of_isInteger false h]
  rfl

theorem readOffsetMoment_of_isInteger (h : IsInteger s negative digits) :
    readOffsetMoment s = none := by
  unfold readOffsetMoment
  cases hyear : readExact 4 s with
  | none => rfl
  | some p =>
    have hrest : ∀ c ∈ p.2, isDigit c = true := by
      obtain ⟨⟨sign, hsign, rfl⟩, hne, hdigit⟩ := h
      unfold readExact at hyear
      cases hsign with
      | none =>
        simp only [List.nil_append] at hyear
        split at hyear
        · obtain rfl := Option.some.inj hyear
          exact isDigit_of_mem_takeDigits 4 hdigit
        · cases hyear
      | plus => cases hyear
      | minus => cases hyear
    have hexpect : expect '-' p.2 = none := expect_of_digits hrest (by decide)
    change (expect '-' p.2).bind _ = none
    rw [hexpect, Option.bind_none]

end Calendar

end TableAccess
