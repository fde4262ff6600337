import TableAccess.Text.Octets
/-!
# Numbers as octets

Numbers travel with their most significant octet first; negative ones in two's
complement.

Main results:

- Theorem `readNat_natOctets`: a number that fits its octets reads back.
- Theorem `readInt_intOctets`: so does an integer that fits its octets.
- Theorem `length_natOctets`: a number has as many octets as asked for.
-/

namespace TableAccess.Wire

open Text

/-! ## Natural numbers -/

/-- The last `count` octets of a number. -/
def natOctets : (count : Nat) → Nat → Octets
  | 0, _ => []
  | count + 1, n => natOctets count (n / 256) ++ [UInt8.ofNat n]

/-- The number that octets stand for. -/
def readNat (octets : Octets) : Nat :=
  octets.foldl (fun n b => 256 * n + b.toNat) 0

/-- A number has as many octets as asked for. -/
@[simp]
theorem length_natOctets (count n : Nat) : (natOctets count n).length = count := by
  induction count generalizing n with
  | zero => rfl
  | succ count ih => simp [natOctets, ih]

/-- A number that fits its octets reads back. -/
theorem readNat_natOctets (count n : Nat) (h : n < Nat.pow 256 count) :
    readNat (natOctets count n) = n := by
  induction count generalizing n with
  | zero =>
    have hzero : n = 0 := Nat.lt_one_iff.1 h
    simp [natOctets, readNat, hzero]
  | succ count ih =>
    have hdiv : n / 256 < Nat.pow 256 count := by
      have hnext : Nat.pow 256 (count + 1) = Nat.pow 256 count * 256 := rfl
      rw [hnext, Nat.mul_comm] at h
      exact Nat.div_lt_of_lt_mul h
    have hprefix := ih (n / 256) hdiv
    simp only [readNat] at hprefix
    simp only [natOctets, readNat, List.foldl_append, hprefix, List.foldl_cons, List.foldl_nil,
      UInt8.toNat_ofNat']
    omega

/-! ## Integers -/

/-- The last `count` octets of an integer in two's complement. -/
def intOctets (count : Nat) (i : Int) : Octets :=
  natOctets count (i % (Nat.pow 256 count : Nat)).toNat

/-- The integer that octets stand for in two's complement. -/
def readInt (octets : Octets) : Int :=
  let n := readNat octets
  if 2 * n < Nat.pow 256 octets.length then n else n - (Nat.pow 256 octets.length : Nat)

@[simp]
theorem length_intOctets (count : Nat) (i : Int) : (intOctets count i).length = count :=
  length_natOctets count _

/-- An integer that fits its octets reads back. -/
theorem readInt_intOctets (count : Nat) (i : Int) (hlow : -(Nat.pow 256 count : Nat) ≤ 2 * i)
    (hhigh : 2 * i < (Nat.pow 256 count : Nat)) : readInt (intOctets count i) = i := by
  have hpos : 0 < (Nat.pow 256 count : Nat) := Nat.pow_pos (by decide)
  have hmod : (i % (Nat.pow 256 count : Nat)).toNat < Nat.pow 256 count := by
    have := Int.emod_lt_of_pos i (b := (Nat.pow 256 count : Nat)) (by omega)
    have := Int.emod_nonneg i (b := (Nat.pow 256 count : Nat)) (by omega)
    omega
  simp only [readInt, length_intOctets]
  rw [intOctets, readNat_natOctets _ _ hmod]
  generalize Nat.pow 256 count = m at *
  by_cases hneg : i < 0
  · have hi : i % (m : Int) = i + m := by
      rw [← Int.add_emod_right]
      exact Int.emod_eq_of_lt (by omega) (by omega)
    rw [hi, if_neg (by omega)]
    omega
  · have hi : i % (m : Int) = i := Int.emod_eq_of_lt (by omega) (by omega)
    rw [hi, if_pos (by omega)]
    omega

/-- The number that octets stand for, if there are as many as expected. -/
def readNat? (count : Nat) (octets : Octets) : Option Nat :=
  if octets.length = count then some (readNat octets) else none

/-- The integer that octets stand for, if there are as many as expected. -/
def readInt? (count : Nat) (octets : Octets) : Option Int :=
  if octets.length = count then some (readInt octets) else none

end TableAccess.Wire
