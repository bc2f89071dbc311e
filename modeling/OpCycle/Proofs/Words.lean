import Mathlib.Algebra.Group.Int.Defs
import Mathlib.Algebra.Group.Nat.Defs
import Mathlib.Logic.Function.Basic

/-! # Signed and unsigned words
A 64-bit integer and a word have the same bits, and their values agree modulo `2 ^ 64`. -/

namespace OpCycle.Words

/-- A word below half of the range has the value of its integer: `x.toInt64.toInt = x.toNat`. -/
theorem toInt_toInt64 {x : UInt64} (fits : x.toNat < 2 ^ 63) : x.toInt64.toInt = x.toNat := by
  have half : 2 * x.toBitVec.toNat < 2 ^ 64 := by
    show 2 * x.toNat < 2 ^ 64
    omega
  exact BitVec.toInt_eq_toNat_of_lt half

/-- The word of an integer has its remainder modulo `2 ^ 64` as its value. -/
theorem toNat_toUInt64 (n : Int64) : (n.toUInt64.toNat : Int) = n.toInt % 2 ^ 64 := by
  have value : n.toInt = (n.toUInt64.toNat : Int).bmod (2 ^ 64) := n.toBitVec.toInt_eq_toNat_bmod
  have below : (n.toUInt64.toNat : Int) < 2 ^ 64 := by exact_mod_cast n.toUInt64.toNat_lt
  show _ = n.toInt % ((2 ^ 64 : Nat) : Int)
  rw [value, Int.bmod_emod]
  exact (Int.emod_eq_of_lt (Int.natCast_nonneg _) below).symm

/-- The word of an integer that is not negative has its value: `(n.toUInt64.toNat : Int) = n.toInt`. -/
theorem toNat_toUInt64_of_nonneg {n : Int64} (nonneg : 0 ≤ n.toInt) : (n.toUInt64.toNat : Int) = n.toInt := by
  have greatest := n.toInt_lt
  rw [toNat_toUInt64]
  omega

/-- A word that fits between two integers takes the lower one to an integer between them:
`(low.toUInt64 + offset).toInt64.toInt = low.toInt + offset.toNat`. -/
theorem toInt_add_offset {low high : Int64} {offset : UInt64}
    (fits : low.toInt + offset.toNat ≤ high.toInt) :
    (low.toUInt64 + offset).toInt64.toInt = low.toInt + offset.toNat := by
  have value : offset.toInt64.toInt = (offset.toNat : Int).bmod (2 ^ 64) := offset.toBitVec.toInt_eq_toNat_bmod
  rw [UInt64.toInt64_add, Int64.toInt64_toUInt64, Int64.toInt_add, value, Int.add_bmod_bmod]
  have least := low.le_toInt
  have greatest := high.toInt_lt
  exact Int.bmod_eq_of_le (by omega) (by omega)

/-- An integer has the bits of a word exactly if it is the integer of the word: `n.toUInt64 = x ↔ n = x.toInt64`. -/
theorem toUInt64_eq_iff {n : Int64} {x : UInt64} : n.toUInt64 = x ↔ n = x.toInt64 := by
  constructor
  · rintro rfl
    exact n.toInt64_toUInt64.symm
  · rintro rfl
    exact x.toUInt64_toInt64

/-- Reading 64-bit integers as words is a bijection: `Function.Bijective Int64.toUInt64`. -/
theorem bijective_toUInt64 : Function.Bijective Int64.toUInt64 :=
  Function.bijective_iff_has_inverse.2 ⟨UInt64.toInt64, Int64.toInt64_toUInt64, UInt64.toUInt64_toInt64⟩

/-- Reading words as 64-bit integers is a bijection: `Function.Bijective UInt64.toInt64`. -/
theorem bijective_toInt64 : Function.Bijective UInt64.toInt64 :=
  Function.bijective_iff_has_inverse.2 ⟨Int64.toUInt64, UInt64.toUInt64_toInt64, Int64.toInt64_toUInt64⟩

/-- Adding a constant permutes the words: `Function.Bijective (c + ·)`. -/
theorem bijective_add (c : UInt64) : Function.Bijective (c + ·) := by
  refine Function.bijective_iff_has_inverse.2 ⟨(· - c), fun x => ?_, fun x => ?_⟩
  · show c + x - c = x
    rw [UInt64.add_comm, UInt64.add_sub_cancel]
  · show c + (x - c) = x
    rw [UInt64.add_comm, UInt64.sub_add_cancel]

end OpCycle.Words
