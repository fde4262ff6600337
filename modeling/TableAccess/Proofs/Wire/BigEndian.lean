import Mathlib.Data.List.Induction
import Mathlib.Algebra.Order.Ring.Int
import Mathlib.Tactic.Positivity
import Mathlib.Tactic.Ring
import TableAccess.Wire.BigEndian
/-!
# Octets as numbers

Octets stand for one number of their width, and every number has its octets place by place, the
most significant first.  A negative number has the octets of the number that is larger by the
power of 256 for the width, so that its places are those of a number divided downward.

Main results:

- Theorems `natOctets_readNat` and `intOctets_readInt`: octets are those of the number that they
  stand for.
- Theorems `toNat_getElem_natOctets` and `toNat_getElem_intOctets`: the octet at a place.
-/

namespace TableAccess.Wire

open Text

/-! ## Octets from numbers and back -/

/-- One more octet is one more place. -/
theorem readNat_append (octets : Octets) (b : UInt8) :
    readNat (octets ++ [b]) = 256 * readNat octets + b.toNat := by
  simp [readNat]

/-- The number that octets stand for is below 256 to the power of their count. -/
theorem readNat_lt (octets : Octets) : readNat octets < 256 ^ octets.length := by
  induction octets using List.reverseRecOn with
  | nil => simp [readNat]
  | append_singleton octets b ih =>
    have hlast := b.toNat_lt
    rw [readNat_append, List.length_append, List.length_singleton, pow_succ]
    omega

/-- Octets are those of the number that they stand for. -/
theorem natOctets_readNat (octets : Octets) :
    natOctets octets.length (readNat octets) = octets := by
  induction octets using List.reverseRecOn with
  | nil => rfl
  | append_singleton octets b ih =>
    have hlast := b.toNat_lt
    have hfront : readNat (octets ++ [b]) / 256 = readNat octets := by
      rw [readNat_append]
      omega
    have hb : UInt8.ofNat (readNat (octets ++ [b])) = b := by
      rw [readNat_append]
      apply UInt8.toNat_inj.1
      rw [UInt8.toNat_ofNat']
      omega
    rw [List.length_append, List.length_singleton, natOctets, hfront, ih, hb]

/-- The integer that octets stand for differs from their number by the power of 256 for their
width, if at all. -/
theorem readInt_emod (octets : Octets) :
    readInt octets % (256 ^ octets.length : Nat) = readNat octets := by
  have hlt := readNat_lt octets
  have hpow : Nat.pow 256 octets.length = 256 ^ octets.length := rfl
  unfold readInt
  simp only [hpow]
  split
  · exact Int.emod_eq_of_lt (by omega) (by omega)
  · rw [Int.sub_emod_right]
    exact Int.emod_eq_of_lt (by omega) (by omega)

/-- Octets are those of the integer that they stand for in two's complement. -/
theorem intOctets_readInt (octets : Octets) :
    intOctets octets.length (readInt octets) = octets := by
  have hpow : Nat.pow 256 octets.length = 256 ^ octets.length := rfl
  rw [intOctets, hpow, readInt_emod, Int.toNat_natCast, natOctets_readNat]

/-- A number that fits its octets is read from them. -/
theorem readNat_intOctets {count : Nat} {i : Int} (low : 0 ≤ i) (high : i < 256 ^ count) :
    (readNat (intOctets count i) : Int) = i := by
  have hhigh : i < (Nat.pow 256 count : Nat) := by exact_mod_cast high
  rw [intOctets, Int.emod_eq_of_lt low hhigh, readNat_natOctets _ _ (by omega),
    Int.toNat_of_nonneg low]

/-- An integer has the octets that it was read from. -/
theorem intOctets_of_readInt? {count : Nat} {octets : Octets} {i : Int}
    (h : readInt? count octets = some i) : intOctets count i = octets := by
  unfold readInt? at h
  split at h
  · rename_i hlength
    rw [← hlength, ← Option.some.inj h, intOctets_readInt]
  · cases h

/-! ## Octets place by place -/

/-- The octet at a place of a number. -/
theorem toNat_getElem_natOctets {count n k : Nat} (h : k < (natOctets count n).length) :
    (natOctets count n)[k].toNat = n / 256 ^ (count - 1 - k) % 256 := by
  induction count generalizing n k with
  | zero => simp [natOctets] at h
  | succ count ih =>
    rw [length_natOctets] at h
    simp only [natOctets]
    by_cases hk : k < count
    · have hfront : k < (natOctets count (n / 256)).length := by rwa [length_natOctets]
      have hplace : count + 1 - 1 - k = count - 1 - k + 1 := by omega
      rw [List.getElem_append_left hfront, ih hfront, Nat.div_div_eq_div_mul, hplace, pow_succ']
    · have hlast : k = count := by omega
      subst hlast
      simp

/-- The octet at a place of an integer in two's complement. -/
theorem toNat_getElem_intOctets {count k : Nat} {i : Int}
    (h : k < (intOctets count i).length) :
    ((intOctets count i)[k].toNat : Int) = i / 256 ^ (count - 1 - k) % 256 := by
  have hk : k < count := by rwa [length_intOctets] at h
  have hpow : ((Nat.pow 256 count : Nat) : Int) = 256 ^ (count - 1 - k) * (256 * 256 ^ k) := by
    rw [← pow_succ', ← pow_add, show count - 1 - k + (k + 1) = count by omega]
    exact Nat.cast_pow 256 count
  have hwidth : ((Nat.pow 256 count : Nat) : Int) ≠ 0 := by
    rw [hpow]
    positivity
  -- What is taken off for the width is a multiple of 256 at this place.
  have hdiv : i / 256 ^ (count - 1 - k) =
      i % (Nat.pow 256 count : Nat) / 256 ^ (count - 1 - k) +
        256 * (256 ^ k * (i / (Nat.pow 256 count : Nat))) := by
    conv_lhs => rw [← Int.emod_add_mul_ediv i (Nat.pow 256 count : Nat), hpow, mul_assoc,
      Int.add_mul_ediv_left _ _ (by positivity)]
    rw [hpow]
    ring
  rw [hdiv, Int.add_mul_emod_self_left]
  simp only [intOctets]
  rw [toNat_getElem_natOctets]
  push_cast
  rw [Int.toNat_of_nonneg (Int.emod_nonneg _ hwidth)]

end TableAccess.Wire
