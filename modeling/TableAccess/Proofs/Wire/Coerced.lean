import TableAccess.Proofs.Wire.IntegerText
import TableAccess.Text.Offset
/-!
# Coerced texts as parameters

A text that is an integer of 64 bits may be coerced into it.  The integer is sent like the text
for most types, but not for all: a text type keeps leading zeros, signs and blanks apart, a
floating-point number and a document keep the sign of a zero, and where a text is sent as it is
or as an identifier, an integer is refused.

Main results:

- Theorem `documentOctets_inj`: documents have the same octets if they have the same text.
- Theorem `send_coerceInteger_iff`: when a text and what it is coerced into are sent alike.
-/

namespace TableAccess.Wire

open Text

/-! ## Octets -/

/-- Documents have the same octets exactly if they have the same text. -/
theorem documentOctets_inj {type : SqlType} {d e : Document} :
    documentOctets type d = documentOctets type e ↔ d.toText = e.toText := by
  constructor
  · intro h
    unfold documentOctets at h
    split at h
    · exact utf8Encode_injective (List.cons.inj h).2
    · exact utf8Encode_injective h
  · intro h
    unfold documentOctets
    rw [h]

/-! ## Coercion -/

section Integer

variable {s : String} {digits : List Char} {negative : Bool}
  (h : IsInteger (trimChars s.toList) negative digits)
  (holds : IntegerRange.int64.holds (signedValue negative (digitsValue digits)) = true)

include holds in
/-- The bounds of an integer of 64 bits. -/
theorem bounds_of_holds :
    -9223372036854775808 ≤ signedValue negative (digitsValue digits) ∧
      signedValue negative (digitsValue digits) ≤ 9223372036854775807 :=
  (IntegerRange.int64.holds_iff _).1 holds

include holds in
/-- An integer within these bounds is kept. -/
theorem toInt_ofInt : (Int64.ofInt (signedValue negative (digitsValue digits))).toInt =
    signedValue negative (digitsValue digits) := by
  have hbounds := bounds_of_holds holds
  exact Int64.toInt_ofInt_of_le (by omega) (by omega)

include holds in
/-- The magnitude of such an integer is at most `2 ^ 63`. -/
theorem digitsValue_le : digitsValue digits ≤ 2 ^ 63 := by
  have hbounds := bounds_of_holds holds
  cases negative with
  | false =>
    rw [signedValue_false] at hbounds
    omega
  | true =>
    rw [signedValue_true] at hbounds
    omega

include h holds in
/-- A text that is an integer of 64 bits is coerced into it. -/
theorem coerceInteger_of_isInteger : (Value.text s).coerceInteger =
    .int (Int64.ofInt (signedValue negative (digitsValue digits))) := by
  have hread : readInteger .int64 (trimChars s.toList) =
      .ok (signedValue negative (digitsValue digits)) :=
    (readInteger_eq_ok_iff (by decide) (by decide) _ _).2
      ⟨negative, digits, h, rfl, holds, fun _ => rfl⟩
  rw [Value.coerceInteger, hread]

include h in
/-- The sign of an integer is a minus exactly if the text begins with one. -/
theorem head?_eq_minus_iff : (trimChars s.toList).head? = some '-' ↔ negative = true := by
  obtain ⟨⟨sign, hsign, htext⟩, hne, hdigit⟩ := h
  rw [htext]
  cases hsign with
  | none =>
    obtain ⟨c, r, rfl⟩ := List.exists_cons_of_ne_nil hne
    simpa using ne_of_isDigit (hdigit c List.mem_cons_self) (by decide)
  | plus => simp
  | minus => simp

end Integer

/-! ## Sending by type -/

/-- Whether a text and the integer that it is read as are sent alike to a type.  The same number
is sent to number types and as a truth value, except that zeros with a minus are different
floating-point numbers and documents.  The same text is sent only if the text is the usual one of
the integer.  And an integer is refused where texts are sent as they are, or as identifiers. -/
def SentAlike (type : SqlType) (s : String) (i : Int) : Prop :=
  match type with
  | .float4 | .float8 | .json | .jsonb => i = 0 → (trimChars s.toList).head? ≠ some '-'
  | .text | .varchar | .bpchar | .name | .unknown => s.toList = intDigits i
  | .uuid | .other _ => False
  | _ => True

/-- Whether a text is sent to a type alike after coercion.  It is if it is no integer of 64
bits. -/
def AlikeAsInteger (type : SqlType) (s : String) : Prop :=
  ∀ i, readInteger .int64 (trimChars s.toList) = .ok i → SentAlike type s i

/-- A text that is an integer is sent alike exactly if this integer is. -/
theorem alikeAsInteger_iff {s : String} {i : Int}
    (read : readInteger .int64 (trimChars s.toList) = .ok i) (type : SqlType) :
    AlikeAsInteger type s ↔ SentAlike type s i := by
  constructor
  · intro h
    exact h i read
  · intro h j hj
    rw [read] at hj
    exact Except.ok.inj hj ▸ h

/-- What a text is read as is sent. -/
theorem sendRead_eq_ok {α : Type} {read : Option α} {error : SendError} {f : α → Octets}
    {octets : Option Octets} :
    sendRead read error f = .ok octets ↔ ∃ a, read = some a ∧ octets = some (f a) := by
  cases read with
  | none => simp [sendRead]
  | some a =>
    simp only [sendRead, Option.some.injEq, exists_eq_left']
    constructor
    · intro h
      exact (Except.ok.inj h).symm
    · rintro rfl
      rfl

/-- Zeros with a minus are the only integers that are other floating-point numbers as texts. -/
theorem binaryOctets_eq_iff {f : Format} (format : f ∈ [Format.binary32, .binary64])
    (negative : Bool) (n : Nat) :
    binaryOctets (if n = 0 then Binary.zero f negative
        else Binary.ofInt f (signedValue negative n)) =
      binaryOctets (Binary.ofInt f (signedValue negative n)) ↔ (n = 0 → negative = false) := by
  by_cases hn : n = 0
  · have hzero : ∀ g ∈ [Format.binary32, .binary64], ∀ b : Bool,
        binaryOctets (Binary.zero g b) = binaryOctets (Binary.ofInt g (signedValue b 0)) ↔
          b = false := by decide
    rw [if_pos hn, hn, hzero f format negative]
    simp
  · simp [hn]

/-- Only zero with a minus is another document than the integer. -/
theorem ofWhole_toText_eq_iff {negative : Bool} {n : Nat} (hn : n ≤ 2 ^ 63) :
    (Document.ofWhole negative n).toText = (Document.int (signedValue negative n)).toText ↔
      (n = 0 → negative = false) := by
  have hlimit : Nat.pow 2 63 = 2 ^ 63 := rfl
  cases negative with
  | false => simp [Document.ofWhole]
  | true =>
    by_cases hzero : n = 0
    · have hzeroBinary : Document.ofWhole true 0 = .float (Binary.zero .binary64 true) := by
        rw [Document.ofWhole, if_neg (by decide), if_pos (.inl rfl), Binary.ofRatio,
          Binary.roundMagnitude, if_pos rfl]
        rfl
      have hfinite : (Binary.zero .binary64 true).isFinite = true := by decide
      have hbinary : Document.write (.ofWhole true 0) = ['-', '0', '.', '0'] := by
        rw [hzeroBinary, Document.write, if_pos hfinite]
        exact Layout.render_zero .document true
      have hwhole : Document.write (.int 0) = ['0'] := by
        rw [Document.write, intDigits, natDigits]
        rfl
      have hminus : (Document.ofWhole true 0).toText ≠ (Document.int 0).toText := by
        intro heq
        have htext := String.ofList_injective heq
        rw [hbinary, hwhole] at htext
        cases htext
      simp [hzero, hminus]
    · rw [Document.ofWhole, if_neg (by decide), if_neg (by omega)]
      simp [hzero]

section Types

variable {s : String} {digits : List Char} {negative : Bool}
  (h : IsInteger (trimChars s.toList) negative digits)
  (holds : IntegerRange.int64.holds (signedValue negative (digitsValue digits)) = true)
  {octets : Option Octets}
include h holds

/-- A text that is sent to an integer type is sent like its integer. -/
theorem sendInt_of_integerRange {type : SqlType} {range : IntegerRange} {count : Nat}
    (integer : integerRange? type = some (range, count)) (sent : sendText type s = .ok octets) :
    sendInt type (Int64.ofInt (signedValue negative (digitsValue digits))) = .ok octets := by
  have hzero : range.low ≤ 0 ∧ 0 ≤ range.high := by
    cases type <;> cases integer <;> decide
  simp only [sendText, integer] at sent
  cases hread : readInteger range (trimChars s.toList) with
  | error fault => simp [hread] at sent
  | ok i =>
    obtain ⟨negative', digits', h', rfl, hholds, -⟩ :=
      (readInteger_eq_ok_iff hzero.1 hzero.2 _ _).1 hread
    obtain ⟨rfl, rfl⟩ := Prod.mk.inj (h'.takeSign_eq.symm.trans h.takeSign_eq)
    rw [hread] at sent
    simp only [sendInt, integer, toInt_ofInt holds, hholds, if_true]
    exact sent

omit holds in
/-- A zero with a minus is told by its sign and its digits. -/
theorem zero_minus_iff :
    (signedValue negative (digitsValue digits) = 0 →
        (trimChars s.toList).head? ≠ some '-') ↔ (digitsValue digits = 0 → negative = false) := by
  rw [signedValue_eq_zero_iff, ne_eq, head?_eq_minus_iff h, Bool.not_eq_true]

/-- A text that is sent as a floating-point number is sent like its integer, unless it is a zero
with a minus. -/
theorem binary_sent_iff {f : Format} (format : f ∈ [Format.binary32, .binary64])
    (sent : sendRead (Binary.read f (trimChars s.toList)) .floatText binaryOctets = .ok octets) :
    (.ok (some (binaryOctets (Binary.ofInt f
        (Int64.ofInt (signedValue negative (digitsValue digits))).toInt))) : Sent) = .ok octets ↔
      (signedValue negative (digitsValue digits) = 0 →
        (trimChars s.toList).head? ≠ some '-') := by
  have hsmall : digitsValue digits < 10 ^ 20 :=
    (digitsValue_le holds).trans_lt (by decide)
  obtain ⟨x, hread, rfl⟩ := sendRead_eq_ok.1 sent
  rw [Binary.read_of_isInteger f h hsmall] at hread
  obtain rfl := Option.some.inj hread
  rw [toInt_ofInt holds, zero_minus_iff h, ← binaryOctets_eq_iff format]
  simp only [Except.ok.injEq, Option.some.injEq]
  exact eq_comm

/-- A text that is sent as a document is sent like its integer, unless it is a zero with a
minus. -/
theorem document_sent_iff {type : SqlType}
    (sent : sendRead (Document.ofText? s) .document (documentOctets type) = .ok octets) :
    (.ok (some (documentOctets type (.int
        (Int64.ofInt (signedValue negative (digitsValue digits))).toInt))) : Sent) = .ok octets ↔
      (signedValue negative (digitsValue digits) = 0 →
        (trimChars s.toList).head? ≠ some '-') := by
  have hle := digitsValue_le holds
  obtain ⟨d, hread, rfl⟩ := sendRead_eq_ok.1 sent
  obtain rfl := Document.ofText?_of_isInteger h (hle.trans_lt (by decide)) hread
  rw [toInt_ofInt holds, zero_minus_iff h, ← ofWhole_toText_eq_iff hle]
  simp only [Except.ok.injEq, Option.some.injEq, documentOctets_inj]
  exact eq_comm

omit h in
/-- A text and its integer are sent alike to a text type if the text is the usual one. -/
theorem text_sent_iff (sent : (.ok (some (utf8Encode s)) : Sent) = .ok octets) :
    (.ok (some (utf8Encode (Value.integerText
        (Int64.ofInt (signedValue negative (digitsValue digits)))))) : Sent) = .ok octets ↔
      s.toList = intDigits (signedValue negative (digitsValue digits)) := by
  rw [← sent, Value.integerText, toInt_ofInt holds]
  simp only [Except.ok.injEq, Option.some.injEq, utf8Encode_injective.eq_iff]
  rw [← String.toList_inj, intText, String.toList_ofList]
  exact eq_comm

/-- When a text and its integer are sent alike. -/
theorem sendInt_iff {type : SqlType} (sent : sendText type s = .ok octets) :
    sendInt type (Int64.ofInt (signedValue negative (digitsValue digits))) = .ok octets ↔
      SentAlike type s (signedValue negative (digitsValue digits)) := by
  have hle := digitsValue_le holds
  cases type with
  | int2 => exact iff_of_true (sendInt_of_integerRange h holds rfl sent) trivial
  | int4 => exact iff_of_true (sendInt_of_integerRange h holds rfl sent) trivial
  | int8 => exact iff_of_true (sendInt_of_integerRange h holds rfl sent) trivial
  | oid => exact iff_of_true (sendInt_of_integerRange h holds rfl sent) trivial
  | float4 => exact binary_sent_iff h holds (by simp) sent
  | float8 => exact binary_sent_iff h holds (by simp) sent
  | json => exact document_sent_iff h holds sent
  | jsonb => exact document_sent_iff h holds sent
  | text => exact text_sent_iff holds sent
  | varchar => exact text_sent_iff holds sent
  | bpchar => exact text_sent_iff holds sent
  | name => exact text_sent_iff holds sent
  | unknown => exact text_sent_iff holds sent
  | uuid => exact iff_of_false nofun id
  | other typeName => exact iff_of_false nofun id
  | numeric =>
    obtain ⟨d, hread, rfl⟩ := sendRead_eq_ok.1 sent
    rw [Decimal.read_of_isInteger h (hle.trans_lt (by decide))] at hread
    obtain rfl := Option.some.inj hread
    have hsend : ∀ i, sendInt .numeric i = .ok (some (Numeric.send (.ofInt i.toInt))) :=
      fun _ => rfl
    refine iff_of_true ?_ trivial
    rw [hsend, toInt_ofInt holds, Numeric.send_signed]
  | bool =>
    obtain ⟨b, hread, rfl⟩ := sendRead_eq_ok.1 sent
    obtain rfl := readBool_of_isInteger h hread
    have hsend : ∀ i, sendInt .bool i = .ok (some (boolOctets (i.toInt ≠ 0))) := fun _ => rfl
    refine iff_of_true ?_ trivial
    rw [hsend, toInt_ofInt holds]
  | date =>
    obtain ⟨d, hread, -⟩ := sendRead_eq_ok.1 sent
    rw [Calendar.readDate_of_isInteger h] at hread
    cases hread
  | time =>
    obtain ⟨d, hread, -⟩ := sendRead_eq_ok.1 sent
    rw [Calendar.readClock_of_isInteger h] at hread
    cases hread
  | timestamp =>
    obtain ⟨d, hread, -⟩ := sendRead_eq_ok.1 sent
    rw [Calendar.readMoment_of_isInteger h] at hread
    cases hread
  | timestamptz =>
    obtain ⟨d, hread, -⟩ := sendRead_eq_ok.1 sent
    rw [Calendar.readOffsetMoment_of_isInteger h] at hread
    cases hread

end Types

/-- When a text and what it is coerced into are sent alike, given that the text is sent. -/
theorem send_coerceInteger_iff {type : SqlType} {s : String} {octets : Option Octets}
    (sent : send type (.text s) = .ok octets) :
    send type (Value.text s).coerceInteger = .ok octets ↔ AlikeAsInteger type s := by
  cases hread : readInteger .int64 (trimChars s.toList) with
  | error fault =>
    have hkept : (Value.text s).coerceInteger = .text s := by
      rw [Value.coerceInteger, hread]
    rw [hkept]
    refine iff_of_true sent fun i hi => ?_
    rw [hread] at hi
    cases hi
  | ok i =>
    obtain ⟨negative, digits, h, rfl, holds, -⟩ :=
      (readInteger_eq_ok_iff (by decide) (by decide) _ _).1 hread
    rw [alikeAsInteger_iff hread, coerceInteger_of_isInteger h holds]
    exact sendInt_iff h holds sent

end TableAccess.Wire
