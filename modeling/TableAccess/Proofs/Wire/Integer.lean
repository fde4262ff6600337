import TableAccess.Proofs.Wire.BigEndian
import TableAccess.Proofs.Wire.Coerced
import TableAccess.Wire.Cell
/-!
# Integers as parameters and cells

There are four types of integers.  An integer is sent to one of them exactly if it fits, in as
many octets as the type has, and these octets are read as the same integer.  A text is sent like
the integer that it denotes, and to a type without negative numbers it may not have a minus,
even before a zero.

Main results:

- Theorem `sendInt_eq_ok_iff`: which integers are sent, and as which octets.
- Theorem `decode_intOctets`: the octets of an integer are read as it.
- Theorem `sendText_eq_ok_iff`: which texts are sent, and like which integer.
- Theorem `integers_exact`: all of this, with octets and texts described and not computed.
-/

namespace TableAccess.Wire

open Text

/-! ## Types of integers -/

/-- The types of integers, with the number of their octets and whether they have negative
numbers. -/
inductive IsIntegerType : SqlType → (width : Nat) → (signed : Bool) → Prop
  | int2 : IsIntegerType .int2 2 true
  | int4 : IsIntegerType .int4 4 true
  | int8 : IsIntegerType .int8 8 true
  | oid : IsIntegerType .oid 4 false

/-- Whether an integer fits octets, of which one half is for negative numbers if there are
any. -/
def Fits (width : Nat) (signed : Bool) (i : Int) : Prop :=
  if signed then -256 ^ width ≤ 2 * i ∧ 2 * i < 256 ^ width else 0 ≤ i ∧ i < 256 ^ width

/-- The integers that fit octets with a sign. -/
theorem fits_signed (width : Nat) (i : Int) :
    Fits width true i ↔ -256 ^ width ≤ 2 * i ∧ 2 * i < 256 ^ width :=
  iff_of_eq (if_pos rfl)

/-- The integers that fit octets without a sign. -/
theorem fits_unsigned (width : Nat) (i : Int) :
    Fits width false i ↔ 0 ≤ i ∧ i < 256 ^ width :=
  iff_of_eq (if_neg Bool.false_ne_true)

/-- Whether octets are those of an integer, the most significant first, negative ones in two's
complement. -/
structure IsBigEndian (width : Nat) (i : Int) (octets : Octets) : Prop where
  length : octets.length = width
  place : ∀ k (h : k < octets.length),
    (octets[k].toNat : Int) = i / 256 ^ (width - 1 - k) % 256

/-- The octets of an integer are its places, the greatest one first. -/
theorem isBigEndian_intOctets (width : Nat) (i : Int) :
    IsBigEndian width i (intOctets width i) :=
  ⟨length_intOctets width i, fun _ h => toNat_getElem_intOctets h⟩

section IntegerType

variable {type : SqlType} {width : Nat} {signed : Bool} (integer : IsIntegerType type width signed)
include integer

/-- The integers that a type holds are those that fit it. -/
theorem IsIntegerType.exists_range : ∃ range : IntegerRange,
    integerRange? type = some (range, width) ∧ range.low ≤ 0 ∧ 0 ≤ range.high ∧
      range.signed = signed ∧ ∀ i, range.holds i = true ↔ Fits width signed i := by
  cases integer with
  | int2 =>
    refine ⟨.int16, rfl, by decide, by decide, rfl, fun i => ?_⟩
    simp only [IntegerRange.holds_iff, fits_signed, IntegerRange.int16]
    omega
  | int4 =>
    refine ⟨.int32, rfl, by decide, by decide, rfl, fun i => ?_⟩
    simp only [IntegerRange.holds_iff, fits_signed, IntegerRange.int32]
    omega
  | int8 =>
    refine ⟨.int64, rfl, by decide, by decide, rfl, fun i => ?_⟩
    simp only [IntegerRange.holds_iff, fits_signed, IntegerRange.int64]
    omega
  | oid =>
    refine ⟨.nat32, rfl, by decide, by decide, rfl, fun i => ?_⟩
    simp only [IntegerRange.holds_iff, fits_unsigned, IntegerRange.nat32]
    omega

/-- Every integer that fits a type has 64 bits. -/
theorem IsIntegerType.toInt_ofInt {i : Int} (h : Fits width signed i) :
    (Int64.ofInt i).toInt = i := by
  have hbounds : -2 ^ 63 ≤ i ∧ i < 2 ^ 63 := by
    cases integer with
    | int2 =>
      rw [fits_signed] at h
      omega
    | int4 =>
      rw [fits_signed] at h
      omega
    | int8 =>
      rw [fits_signed] at h
      omega
    | oid =>
      rw [fits_unsigned] at h
      omega
  exact Int64.toInt_ofInt_of_le hbounds.1 hbounds.2

/-! ## Sending and reading integers -/

/-- Which integers are sent, and as which octets. -/
theorem sendInt_eq_ok_iff (i : Int64) (octets : Option Octets) :
    send type (.int i) = .ok octets ↔
      Fits width signed i.toInt ∧ octets = some (intOctets width i.toInt) := by
  obtain ⟨range, hrange, -, -, -, hholds⟩ := integer.exists_range
  rw [← hholds]
  simp only [send, sendInt, hrange]
  by_cases h : range.holds i.toInt = true
  · simp [h, eq_comm]
  · simp [h]

/-- The octets of an integer are read as it. -/
theorem decode_intOctets (i : Int64) (h : Fits width signed i.toInt) :
    decode type (some (intOctets width i.toInt)) = some (.int i) := by
  have hvalue : integerValue i.toInt = .int i := by
    rw [integerValue, Int64.ofInt_toInt]
  have hsigned : signed = true →
      (readInt? width (intOctets width i.toInt)).map integerValue = some (.int i) := by
    rintro rfl
    rw [fits_signed] at h
    rw [readInt?, if_pos (length_intOctets _ _), readInt_intOctets _ _ _ _, Option.map_some,
      hvalue]
    · exact_mod_cast h.1
    · exact_mod_cast h.2
  cases integer with
  | int2 => exact hsigned rfl
  | int4 => exact hsigned rfl
  | int8 => exact hsigned rfl
  | oid =>
    rw [fits_unsigned] at h
    have hread : readNat? 4 (intOctets 4 i.toInt) = some (readNat (intOctets 4 i.toInt)) :=
      if_pos (length_intOctets _ _)
    have hsent : decode .oid (some (intOctets 4 i.toInt)) =
        (readNat? 4 (intOctets 4 i.toInt)).map fun (n : Nat) => integerValue n := rfl
    rw [hsent, hread, Option.map_some, readNat_intOctets h.1 h.2, hvalue]

/-- Which texts are sent, and like which integer. -/
theorem sendText_eq_ok_iff (s : String) (octets : Option Octets) :
    send type (.text s) = .ok octets ↔
      ∃ negative digits, IsInteger (trimChars s.toList) negative digits ∧
        (negative = true → signed = true) ∧
        Fits width signed (signedValue negative (digitsValue digits)) ∧
        octets = some (intOctets width (signedValue negative (digitsValue digits))) := by
  obtain ⟨range, hrange, hlow, hhigh, hsigned, hholds⟩ := integer.exists_range
  have hsend : send type (.text s) = .ok octets ↔
      ∃ i, readInteger range (trimChars s.toList) = .ok i ∧
        octets = some (intOctets width i) := by
    simp only [send, sendText, hrange]
    cases readInteger range (trimChars s.toList) with
    | error fault => simp
    | ok i => simp [eq_comm]
  rw [hsend]
  simp only [readInteger_eq_ok_iff hlow hhigh, hholds, hsigned]
  constructor
  · rintro ⟨i, ⟨negative, digits, htext, rfl, hfits, hminus⟩, hoctets⟩
    exact ⟨negative, digits, htext, hminus, hfits, hoctets⟩
  · rintro ⟨negative, digits, htext, hminus, hfits, hoctets⟩
    exact ⟨_, ⟨negative, digits, htext, rfl, hfits, hminus⟩, hoctets⟩

/-- Integers are sent exactly.  An integer is sent to a type exactly if it fits; what is sent are
the octets of the type with the most significant first, negative integers in two's complement, and
they are read as the same integer.  A text is sent exactly if, without the blanks at its ends, it
is one digit or more, perhaps with a plus, or a minus if the type has negative numbers, and its
value fits; then it is sent like the integer of this value. -/
theorem integers_exact :
    (∀ i : Int64,
      ((∃ octets, send type (.int i) = .ok octets) ↔ Fits width signed i.toInt) ∧
      ∀ octets, send type (.int i) = .ok octets → ∃ sent, octets = some sent ∧
        IsBigEndian width i.toInt sent ∧ decode type (some sent) = some (.int i)) ∧
    ∀ (s : String) (octets : Option Octets), send type (.text s) = .ok octets ↔
      ∃ t negative digits, IsTrimmed s.toList t ∧ IsInteger t negative digits ∧
        (negative = true → signed = true) ∧
        Fits width signed (signedValue negative (digitsValue digits)) ∧
        ∃ i : Int64, i.toInt = signedValue negative (digitsValue digits) ∧
          send type (.int i) = .ok octets := by
  refine ⟨fun i => ⟨?_, fun octets sent => ?_⟩, fun s octets => ?_⟩
  · simp [sendInt_eq_ok_iff integer]
  · obtain ⟨hfits, rfl⟩ := (sendInt_eq_ok_iff integer i octets).1 sent
    exact ⟨_, rfl, isBigEndian_intOctets width i.toInt, decode_intOctets integer i hfits⟩
  · rw [sendText_eq_ok_iff integer]
    constructor
    · rintro ⟨negative, digits, htext, hminus, hfits, rfl⟩
      have hvalue := integer.toInt_ofInt hfits
      refine ⟨_, negative, digits, isTrimmed_trimChars _, htext, hminus, hfits, _, hvalue, ?_⟩
      rw [sendInt_eq_ok_iff integer, hvalue]
      exact ⟨hfits, rfl⟩
    · rintro ⟨t, negative, digits, htrimmed, htext, hminus, hfits, i, hvalue, sent⟩
      obtain ⟨-, rfl⟩ := (sendInt_eq_ok_iff integer i octets).1 sent
      rw [hvalue, (trimChars_eq_iff _ _).2 htrimmed]
      exact ⟨negative, digits, htext, hminus, hfits, rfl⟩

end IntegerType

/-- The least integer of two octets, as a text with blanks and zeros. -/
theorem integers_exact_least :
    IsIntegerType .int2 2 true ∧ send .int2 (.text "\t-0032768 ") = .ok (some [0x80, 0x00]) := by
  have htext : ∃ lead trail, "\t-0032768 ".toList = lead ++ "-0032768".toList ++ trail ∧
      (∀ c ∈ lead, isBlank c = true) ∧ ∀ c ∈ trail, isBlank c = true :=
    ⟨['\t'], [' '], by decide, List.forall_mem_singleton.2 (by decide),
      List.forall_mem_singleton.2 (by decide)⟩
  have htrimmed : IsTrimmed "\t-0032768 ".toList "-0032768".toList :=
    ⟨htext, fun c hc => Option.some.inj hc ▸ (by decide : isBlank '-' = false),
      fun c hc => Option.some.inj hc ▸ (by decide : isBlank '8' = false)⟩
  have hinteger : IsInteger "-0032768".toList true "0032768".toList :=
    ⟨⟨['-'], .minus, by decide⟩, by decide,
      List.all_eq_true.1 (by decide : "0032768".toList.all isDigit = true)⟩
  have hfits : Fits 2 true (signedValue true (digitsValue "0032768".toList)) :=
    (fits_signed _ _).2 (by decide)
  exact ⟨.int2, ((integers_exact .int2).2 _ _).2
    ⟨_, true, _, htrimmed, hinteger, fun _ => rfl, hfits, -32768, by decide, by decide⟩⟩

end TableAccess.Wire
