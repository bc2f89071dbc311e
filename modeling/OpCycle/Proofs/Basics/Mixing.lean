import OpCycle.Basics.Library
import OpCycle.Proofs.Outcome
import OpCycle.Proofs.Words

/-! # Mixing loses nothing
Mixing the bits of a word can be undone step by step: folding the high bits onto the low ones twice changes
nothing, and an odd multiplier has an inverse among the words. So a choice from the whole range is a
permutation, dropping the sign bit merges exactly two integers, and a choice from a range stays in it, however
wide it is.

* `unmix`: the inverse of `mix`.
* `hash_eq_iff`: the two integers with a hash.
* `hashing_permutes`: ranges are kept, and nothing is lost but a bit. -/

namespace OpCycle.Basics

open Words

/-! ## Undoing the mix -/

/-- Folds the high bits of a word onto the low ones: `x ^^^ (x >>> 33)`. -/
def foldHigh (x : UInt64) : UInt64 := x ^^^ (x >>> 33)

/-- Mixing folds three times, around two products:
`mix x = foldHigh (foldHigh (foldHigh x * 0xff51afd7ed558ccd) * 0xc4ceb9fe1a85ec53)`. -/
theorem mix_eq (x : UInt64) :
    mix x = foldHigh (foldHigh (foldHigh x * 0xff51afd7ed558ccd) * 0xc4ceb9fe1a85ec53) := rfl

/-- Two shifts by more than half of a word leave none of its bits: `x >>> 33 >>> 33 = 0`. -/
theorem shift_shift (x : UInt64) : x >>> 33 >>> 33 = 0 := by
  rw [← UInt64.toNat_inj, UInt64.toNat_shiftRight, UInt64.toNat_shiftRight, ← Nat.shiftRight_add]
  exact Nat.shiftRight_eq_zero _ _ (Nat.lt_trans x.toNat_lt (by decide))

/-- Folding is its own inverse: `foldHigh (foldHigh x) = x`. -/
theorem foldHigh_foldHigh (x : UInt64) : foldHigh (foldHigh x) = x := by
  unfold foldHigh
  rw [UInt64.shiftRight_xor, shift_shift, UInt64.xor_zero, UInt64.xor_assoc, UInt64.xor_self, UInt64.xor_zero]

/-- Undoes `mix`: folds in place of folds, and products with the inverse multipliers in reverse. -/
def unmix (x : UInt64) : UInt64 :=
  foldHigh (foldHigh (foldHigh x * 0x9cb4b2f8129337db) * 0x4f74430c22a54005)

/-- A product with a multiplier and its inverse changes nothing: `x * factor * inverse = x`. -/
theorem mul_mul_inverse {factor inverse : UInt64} (inverts : factor * inverse = 1) (x : UInt64) :
    x * factor * inverse = x := by
  rw [UInt64.mul_assoc, inverts, UInt64.mul_one]

/-- Unmixing undoes mixing: `unmix (mix x) = x`. -/
theorem unmix_mix (x : UInt64) : unmix (mix x) = x := by
  rw [mix_eq, unmix, foldHigh_foldHigh, mul_mul_inverse (by decide), foldHigh_foldHigh,
    mul_mul_inverse (by decide), foldHigh_foldHigh]

/-- Mixing undoes unmixing: `mix (unmix x) = x`. -/
theorem mix_unmix (x : UInt64) : mix (unmix x) = x := by
  rw [mix_eq, unmix, foldHigh_foldHigh, mul_mul_inverse (by decide), foldHigh_foldHigh,
    mul_mul_inverse (by decide), foldHigh_foldHigh]

/-- A word is mixed to another one exactly if undoing the mix leads back: `mix x = y ↔ x = unmix y`. -/
theorem mix_eq_iff {x y : UInt64} : mix x = y ↔ x = unmix y := by
  constructor
  · rintro rfl
    exact (unmix_mix x).symm
  · rintro rfl
    exact mix_unmix y

/-- Every word is the mix of exactly one word: `Function.Bijective mix`. -/
theorem bijective_mix : Function.Bijective mix :=
  Function.bijective_iff_has_inverse.2 ⟨unmix, unmix_mix, mix_unmix⟩

/-! ## Choices from a range -/

/-- The width of a range is one more than the distance of its ends, and zero if that is no word:
`((high.toUInt64 - low.toUInt64 + 1).toNat : Int) = (high.toInt - low.toInt + 1) % 2 ^ 64`. -/
theorem toNat_width (low high : Int64) :
    ((high.toUInt64 - low.toUInt64 + 1).toNat : Int) = (high.toInt - low.toInt + 1) % 2 ^ 64 := by
  have lowest := toNat_toUInt64 low
  have highest := toNat_toUInt64 high
  rw [UInt64.toNat_add, UInt64.toNat_sub, UInt64.toNat_one]
  omega

/-- A choice from a range lies in it: `low ≤ hashRange low high n ∧ hashRange low high n ≤ high`. -/
theorem hashRange_mem {low high : Int64} (ordered : low ≤ high) (n : Int64) :
    low ≤ hashRange low high n ∧ hashRange low high n ≤ high := by
  have width := toNat_width low high
  rw [Int64.le_iff_toInt_le] at ordered
  have least := low.le_toInt
  have greatest := high.toInt_lt
  have within {offset : UInt64} (fits : low.toInt + offset.toNat ≤ high.toInt) :
      low ≤ (low.toUInt64 + offset).toInt64 ∧ (low.toUInt64 + offset).toInt64 ≤ high := by
    rw [Int64.le_iff_toInt_le, Int64.le_iff_toInt_le, toInt_add_offset fits]
    omega
  unfold hashRange
  dsimp only
  split
  · next full =>
    -- The width is no word only for the range of all integers.
    rw [full, UInt64.toNat_zero] at width
    have offset := (mix n.toUInt64).toNat_lt
    exact within (by omega)
  · next proper =>
    rw [← UInt64.toNat_inj, UInt64.toNat_zero] at proper
    apply within
    rw [UInt64.toNat_mod]
    have offset := Nat.mod_lt (mix n.toUInt64).toNat (Nat.pos_of_ne_zero proper)
    omega

/-! ## Permutations -/

/-- A choice from the whole range moves the mixed bits by a constant:
`hashRange Int64.minValue Int64.maxValue n = (Int64.minValue.toUInt64 + mix n.toUInt64).toInt64`. -/
theorem hashRange_whole (n : Int64) :
    hashRange Int64.minValue Int64.maxValue n = (Int64.minValue.toUInt64 + mix n.toUInt64).toInt64 := rfl

/-- A choice from the whole range is a permutation: `Function.Bijective (hashRange Int64.minValue Int64.maxValue)`. -/
theorem bijective_hashRange_whole : Function.Bijective (hashRange Int64.minValue Int64.maxValue) := by
  have steps : hashRange Int64.minValue Int64.maxValue =
      UInt64.toInt64 ∘ (Int64.minValue.toUInt64 + ·) ∘ mix ∘ Int64.toUInt64 := funext hashRange_whole
  rw [steps]
  exact bijective_toInt64.comp ((bijective_add _).comp (bijective_mix.comp bijective_toUInt64))

/-! ## Dropping the sign bit -/

/-- Dropping the sign bit takes the remainder modulo `2 ^ 63`. -/
theorem toNat_dropSign (x : UInt64) : (x &&& 0x7fffffffffffffff).toNat = x.toNat % 2 ^ 63 := by
  rw [UInt64.toNat_and]
  exact Nat.and_two_pow_sub_one_eq_mod x.toNat 63

/-- The value of a hash is what the mixed bits leave modulo `2 ^ 63`. -/
theorem toInt_hash (n : Int64) : (hash n).toInt = ((mix n.toUInt64).toNat % 2 ^ 63 : Nat) := by
  have fits : (mix n.toUInt64 &&& 0x7fffffffffffffff).toNat < 2 ^ 63 := by
    rw [toNat_dropSign]
    exact Nat.mod_lt _ (Nat.two_pow_pos 63)
  rw [hash, toInt_toInt64 fits, toNat_dropSign]

/-- A hash is not negative: `0 ≤ hash n`. -/
theorem hash_nonneg (n : Int64) : 0 ≤ hash n := by
  rw [Int64.le_iff_toInt_le, toInt_hash]
  exact Int.natCast_nonneg _

/-- The words that leave a word without sign bit are the word itself and the one with the bit set:
`x.toNat % 2 ^ 63 = y.toNat ↔ x = y ∨ x = y + 0x8000000000000000`. -/
theorem mod_eq_iff {x y : UInt64} (low : y.toNat < 2 ^ 63) :
    x.toNat % 2 ^ 63 = y.toNat ↔ x = y ∨ x = y + 0x8000000000000000 := by
  have bound := x.toNat_lt
  have high : (y + 0x8000000000000000).toNat = y.toNat + 2 ^ 63 := by
    rw [UInt64.toNat_add]
    exact Nat.mod_eq_of_lt (Nat.add_lt_add_right low _)
  rw [← UInt64.toNat_inj, ← UInt64.toNat_inj, high]
  omega

/-- The two integers with a hash: those that are mixed to its bits, without the sign bit and with it
(`hash n = m ↔ n = (unmix m.toUInt64).toInt64 ∨ n = (unmix (m.toUInt64 + 0x8000000000000000)).toInt64`). -/
theorem hash_eq_iff {m : Int64} (nonneg : 0 ≤ m) (n : Int64) :
    hash n = m ↔ n = (unmix m.toUInt64).toInt64 ∨ n = (unmix (m.toUInt64 + 0x8000000000000000)).toInt64 := by
  rw [Int64.le_iff_toInt_le] at nonneg
  have bits := toNat_toUInt64_of_nonneg nonneg
  have bound := m.toInt_lt
  have low : m.toUInt64.toNat < 2 ^ 63 := by omega
  calc hash n = m
    _ ↔ (mix n.toUInt64).toNat % 2 ^ 63 = m.toUInt64.toNat := by
      rw [← Int64.toInt_inj, toInt_hash, ← bits]
      exact Int.natCast_inj
    _ ↔ mix n.toUInt64 = m.toUInt64 ∨ mix n.toUInt64 = m.toUInt64 + 0x8000000000000000 := mod_eq_iff low
    _ ↔ _ := by rw [mix_eq_iff, mix_eq_iff, toUInt64_eq_iff, toUInt64_eq_iff]

/-- The two integers that share a hash are different:
`(unmix x).toInt64 ≠ (unmix (x + 0x8000000000000000)).toInt64`. -/
theorem unmix_ne {x : UInt64} : (unmix x).toInt64 ≠ (unmix (x + 0x8000000000000000)).toInt64 := by
  intro same
  have words : x = x + 0x8000000000000000 := by
    have mixed := congrArg mix (bijective_toInt64.injective same)
    rwa [mix_unmix, mix_unmix] at mixed
  rw [← UInt64.toNat_inj, UInt64.toNat_add] at words
  have bound := x.toNat_lt
  have half : (0x8000000000000000 : UInt64).toNat = 2 ^ 63 := rfl
  omega

/-! ## The functions of the library -/

/-- The step takes every integer to an integer, the value of the function there:
`step (.int n) = .ok (.int (f n))`. -/
def Applies (f : Int64 → Int64) (step : Step) : Prop := ∀ n, step (.int n) = .ok (.int (f n))

/-- A step for integers applies its function: `Applies f (onInt fun n => .int (f n))`. -/
theorem applies_onInt (f : Int64 → Int64) : Applies f (onInt fun n => .int (f n)) := by
  intro n
  rfl

/-- The arguments of `HashRange` are accepted if they are ordered. -/
theorem builtIn_hashRange {low high : Int64} (ordered : low ≤ high) :
    builtIn "HashRange" [.int low, .int high] = .ok (onInt fun n => .int (hashRange low high n)) :=
  Outcome.bind_eq_ok.2 ⟨(low, high), if_neg (Int64.not_lt.2 ordered), rfl⟩

/-- `HashRange` stays in its range, `mix` is a bijection, `HashRange` over the whole range is a permutation, and
`Hash` is never negative while every integer that is not negative is the hash of exactly two. -/
theorem hashing_permutes :
    (∀ low high : Int64, low ≤ high → ∃ step f, builtIn "HashRange" [.int low, .int high] = .ok step ∧
      Applies f step ∧ ∀ n, low ≤ f n ∧ f n ≤ high) ∧
    Function.Bijective mix ∧
    (∃ step f, builtIn "HashRange" [.int Int64.minValue, .int Int64.maxValue] = .ok step ∧
      Applies f step ∧ Function.Bijective f) ∧
    ∃ step f, builtIn "Hash" [] = .ok step ∧ Applies f step ∧ (∀ n, 0 ≤ f n) ∧
      ∀ m, 0 ≤ m → ∃ a b, a ≠ b ∧ ∀ n, f n = m ↔ n = a ∨ n = b := by
  refine ⟨?range, bijective_mix, ?whole, ?hash⟩
  case range =>
    intro low high ordered
    exact ⟨_, _, builtIn_hashRange ordered, applies_onInt _, hashRange_mem ordered⟩
  case whole =>
    exact ⟨_, _, builtIn_hashRange (by decide), applies_onInt _, bijective_hashRange_whole⟩
  case hash =>
    refine ⟨_, _, rfl, applies_onInt hash, hash_nonneg, ?_⟩
    intro m nonneg
    exact ⟨_, _, unmix_ne, hash_eq_iff nonneg⟩

/-- Choosing from the range of all integers, whose width is no word, stays in it, and seven is the hash of
exactly two integers. -/
theorem hashing_permutes_sample :
    (Int64.minValue ≤ Int64.maxValue ∧ (0 : Int64) ≤ 7) ∧
    (∃ step f, builtIn "HashRange" [.int Int64.minValue, .int Int64.maxValue] = .ok step ∧
      Applies f step ∧ ∀ n, Int64.minValue ≤ f n ∧ f n ≤ Int64.maxValue) ∧
    ∃ step f, builtIn "Hash" [] = .ok step ∧ Applies f step ∧
      ∃ a b, a ≠ b ∧ ∀ n, f n = 7 ↔ n = a ∨ n = b := by
  obtain ⟨range, -, -, step, f, made, applies, -, twice⟩ := hashing_permutes
  exact ⟨⟨by decide, by decide⟩, range Int64.minValue Int64.maxValue (by decide),
    step, f, made, applies, twice 7 (by decide)⟩

end OpCycle.Basics
