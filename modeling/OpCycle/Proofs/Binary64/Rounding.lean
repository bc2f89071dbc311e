import Mathlib.Algebra.Group.Int.Defs
import Mathlib.Algebra.Group.Nat.Defs
import OpCycle.Binary64.Basic

/-! # Rounding of floats
A number that is a natural times a power of two is rounded to a float by shifting bits out of the natural until 53
are left, or until the exponent is the least one. What is left is rounded to the nearest natural, halves to the even
one, and may carry into a further bit. -/

namespace OpCycle.Binary64

open Float.Model (Format UnpackedFloat)
open Float.Model.UnpackedFloat (Accuracy ExtendedMantissa Sign shiftToTargetExponent roundWithAccuracy)

/-! ## Rounding by shifts -/

/-- Shifting bits out of a mantissa keeps the last of them, and whether any was set before it. -/
theorem shiftRight_succ (m k : Nat) :
    (ExtendedMantissa.mk m false false) >>> (k + 1) =
      ⟨m / 2 ^ (k + 1), m / 2 ^ k % 2 != 0, m % 2 ^ k != 0⟩ := by
  induction k with
  | zero =>
    show ExtendedMantissa.mk (m / 2) (m % 2 != 0) false = _
    simp [Nat.mod_one]
  | succ k ih =>
    show ExtendedMantissa.shiftRightOne ((ExtendedMantissa.mk m false false) >>> (k + 1)) = _
    -- The bit that was shifted out before this one is now among those that only have to be remembered.
    have sticky : (m / 2 ^ k % 2 != 0 || m % 2 ^ k != 0) = (m % 2 ^ (k + 1) != 0) := by
      rw [Nat.mod_pow_succ, Bool.eq_iff_iff]
      simp only [Bool.or_eq_true, bne_iff_ne, ne_eq, Nat.add_eq_zero_iff, Nat.mul_eq_zero,
        Nat.pow_eq_zero]
      omega
    rw [ih, ExtendedMantissa.shiftRightOne]
    dsimp only
    rw [sticky, Nat.div_div_eq_div_mul, ← Nat.pow_succ]

/-- A mantissa is rounded up when more than a half is left over, or a half and it is odd. -/
theorem roundedMantissa_eq (em : ExtendedMantissa) :
    em.roundedMantissa =
      if em.roundBit = true ∧ (em.stickyBit = true ∨ em.mantissa % 2 = 1) then em.mantissa + 1
      else em.mantissa := by
  obtain ⟨mantissa, roundBit, stickyBit⟩ := em
  cases roundBit <;> cases stickyBit
  · simp [ExtendedMantissa.roundedMantissa, ExtendedMantissa.accuracy, Accuracy.roundToNearestEven]
  · simp [ExtendedMantissa.roundedMantissa, ExtendedMantissa.accuracy, Accuracy.roundToNearestEven]
  · simp only [ExtendedMantissa.roundedMantissa, ExtendedMantissa.accuracy, Accuracy.roundToNearestEven]
    split <;> simp_all
  · simp [ExtendedMantissa.roundedMantissa, ExtendedMantissa.accuracy, Accuracy.roundToNearestEven]

/-- What is left of a mantissa after a shift is rounded to the nearest, halves to the even one:
`((ExtendedMantissa.mk m false false) >>> (k + 1)).roundedMantissa = roundShift m (k + 1)`. -/
theorem roundedMantissa_shiftRight (m k : Nat) :
    ((ExtendedMantissa.mk m false false) >>> (k + 1)).roundedMantissa = roundShift m (k + 1) := by
  have low := Nat.mod_lt m (Nat.two_pow_pos k)
  have double : Nat.pow 2 (k + 1) = 2 * 2 ^ k := Nat.pow_succ'
  have split : m % (2 * 2 ^ k) = m % 2 ^ k + 2 ^ k * (m / 2 ^ k % 2) := by
    rw [← Nat.pow_succ', Nat.mod_pow_succ]
  rw [shiftRight_succ, roundedMantissa_eq, roundShift, double, split, Nat.pow_succ']
  have condition : ((m / 2 ^ k % 2 != 0) = true ∧
        ((m % 2 ^ k != 0) = true ∨ m / (2 * 2 ^ k) % 2 = 1)) ↔
      2 * 2 ^ k < 2 * (m % 2 ^ k + 2 ^ k * (m / 2 ^ k % 2)) ∨
        2 * (m % 2 ^ k + 2 ^ k * (m / 2 ^ k % 2)) = 2 * 2 ^ k ∧ m / (2 * 2 ^ k) % 2 = 1 := by
    rw [bne_iff_ne, bne_iff_ne]
    rcases Nat.mod_two_eq_zero_or_one (m / 2 ^ k) with bit | bit <;> rw [bit] <;> omega
  by_cases up : (m / 2 ^ k % 2 != 0) = true ∧ ((m % 2 ^ k != 0) = true ∨ m / (2 * 2 ^ k) % 2 = 1)
  · rw [if_pos up, if_pos (condition.1 up)]
  · rw [if_neg up, if_neg (mt condition.2 up)]

/-- A shift by nothing rounds nothing: `roundShift m 0 = m`. -/
theorem roundShift_zero (m : Nat) : roundShift m 0 = m := by
  rw [roundShift, show Nat.pow 2 0 = 1 from rfl, Nat.mod_one, Nat.div_one]
  exact if_neg (by omega)

/-- A multiple of the step is not rounded: `roundShift (m * 2 ^ k) k = m`. -/
theorem roundShift_mul (m k : Nat) : roundShift (m * 2 ^ k) k = m := by
  have pos := Nat.two_pow_pos k
  rw [roundShift, show Nat.pow 2 k = 2 ^ k from rfl, Nat.mul_mod_left, Nat.mul_div_cancel m pos]
  exact if_neg (by omega)

/-- Rounding gives the quotient or the natural above it:
`roundShift m k = m / 2 ^ k ∨ roundShift m k = m / 2 ^ k + 1`. -/
theorem roundShift_cases (m k : Nat) : roundShift m k = m / 2 ^ k ∨ roundShift m k = m / 2 ^ k + 1 := by
  unfold roundShift
  dsimp only
  split
  · exact .inr rfl
  · exact .inl rfl

/-- A natural that is more than half a step below a multiple of the step is rounded to less than this:
`roundShift m k < n`. -/
theorem roundShift_lt {m k n : Nat} (below : 2 * m + 2 ^ k < 2 * (n * 2 ^ k)) : roundShift m k < n := by
  have pos := Nat.two_pow_pos k
  have rest := Nat.mod_lt m pos
  have split := Nat.div_add_mod m (2 ^ k)
  unfold roundShift
  rw [show Nat.pow 2 k = 2 ^ k from rfl]
  generalize 2 ^ k = step at *
  generalize m % step = rest at *
  generalize m / step = quotient at *
  rw [Nat.mul_comm step quotient] at split
  have less : quotient < n := Nat.lt_of_mul_lt_mul_right (show quotient * step < n * step by omega)
  dsimp only
  by_cases next : quotient + 1 = n
  · -- The natural is in the last step below the multiple, and less than half of it.
    have last : n * step = quotient * step + step := by rw [← next, Nat.add_mul, Nat.one_mul]
    rw [if_neg (by omega)]
    exact less
  · split <;> omega

/-! ## Rounding to 53 bits -/

/-- What a shift leaves of a mantissa, with its rounding:
`((ExtendedMantissa.mk m false false) >>> k).roundedMantissa = roundShift m k`. -/
theorem roundedMantissa_shiftRight_eq (m k : Nat) :
    ((ExtendedMantissa.mk m false false) >>> k).roundedMantissa = roundShift m k := by
  cases k with
  | zero => exact (roundShift_zero m).symm
  | succ k => exact roundedMantissa_shiftRight m k

/-- The exponent at which `m · 2 ^ e` has a mantissa of 53 bits, but no exponent below the least one, `-1074`. -/
def targetOf (m : Nat) (e : Int) : Int := max (m.log2 + e - 52) (-1074)

/-- The least exponent at which a number below two to some power has at most 53 bits:
`Format.binary64.targetExponent total = max (total - 53) (-1074)`. -/
theorem targetExponent_eq_max (total : Int) : Format.binary64.targetExponent total = max (total - 53) (-1074) := rfl

/-- The target exponent of the format is that of `targetOf`. -/
theorem targetExponent_eq (m : Nat) (e : Int) :
    Format.binary64.targetExponent (Float.Model.totalExponent m e) = targetOf m e := by
  rw [targetExponent_eq_max, Float.Model.totalExponent, targetOf]
  omega

/-- The mantissa `m` that was rounded to at most 53 bits at exponent `e`: it stands as it is, or has carried into a
further bit. -/
def rounded (sign : Sign) (m : Nat) (e : Int) : UnpackedFloat :=
  if h : m = 0 then .zero sign
  else if m < 2 ^ 53 then .finite sign m e (Nat.pos_of_ne_zero h)
  else .finite sign (2 ^ 52) (e + 1) (Nat.two_pow_pos 52)

/-- A mantissa of at most 53 bits is kept: `rounded sign m e = .finite sign m e pos`. -/
theorem rounded_of_lt (sign : Sign) {m : Nat} (pos : 0 < m) (high : m < 2 ^ 53) (e : Int) :
    rounded sign m e = .finite sign m e pos := by
  rw [rounded, dif_neg (Nat.ne_of_gt pos), if_pos high]

/-- A mantissa of `2 ^ 53`, which rounding up can give, is halved. -/
theorem rounded_carry (sign : Sign) (e : Int) :
    rounded sign (2 ^ 53) e = .finite sign (2 ^ 52) (e + 1) (Nat.two_pow_pos 52) := rfl

/-- Shifting to `targetOf m e`, which is not below `e`, takes that many bits off. -/
theorem shiftToTargetExponent_eq {m : Nat} {e : Int} (below : e ≤ targetOf m e) :
    shiftToTargetExponent .binary64 m e .exact =
      ((ExtendedMantissa.mk m false false) >>> (targetOf m e - e).toNat, targetOf m e) := by
  have same : e + ((targetOf m e - e).toNat : Int) = targetOf m e := by omega
  rw [shiftToTargetExponent, targetExponent_eq, UnpackedFloat.shiftToExponent, same]
  rfl

/-- A mantissa of at most 53 bits stands as it is at every exponent from the least one on:
`shiftToTargetExponent .binary64 m e .exact = (⟨m, false, false⟩, e)`. -/
theorem shiftToTargetExponent_of_lt {m : Nat} {e : Int} (high : m < 2 ^ 53) (least : -1074 ≤ e) :
    shiftToTargetExponent .binary64 m e .exact = (⟨m, false, false⟩, e) := by
  have log : m.log2 < 53 := by
    rcases Nat.eq_zero_or_pos m with rfl | pos
    · decide
    · exact (Nat.log2_lt (Nat.ne_of_gt pos)).2 high
  have below : (targetOf m e - e).toNat = 0 := by
    unfold targetOf
    omega
  rw [shiftToTargetExponent, targetExponent_eq, UnpackedFloat.shiftToExponent, below]
  show (ExtendedMantissa.mk m false false, e + ((0 : Nat) : Int)) = _
  rw [Int.natCast_zero, Int.add_zero]

/-- The least mantissa of 54 bits gives up its last one:
`shiftToTargetExponent .binary64 (2 ^ 53) e .exact = (⟨2 ^ 52, false, false⟩, e + 1)`. -/
theorem shiftToTargetExponent_carry {e : Int} (least : -1074 ≤ e) :
    shiftToTargetExponent .binary64 (2 ^ 53) e .exact = (⟨2 ^ 52, false, false⟩, e + 1) := by
  have target : targetOf (2 ^ 53) e = e + 1 := by
    rw [targetOf, Nat.log2_two_pow]
    omega
  have one : (e + 1 - e).toNat = 1 := by omega
  rw [shiftToTargetExponent, targetExponent_eq, target, UnpackedFloat.shiftToExponent, one]
  rfl

/-- The mantissa at `targetOf m e` has at most 53 bits, and all of them when this exponent is not the least one. -/
theorem roundShift_target_bounds {m : Nat} {e : Int} (pos : 0 < m) (below : e ≤ targetOf m e) :
    roundShift m (targetOf m e - e).toNat ≤ 2 ^ 53 ∧
      (-1074 < targetOf m e → 2 ^ 52 ≤ roundShift m (targetOf m e - e).toNat) := by
  have cases := roundShift_cases m (targetOf m e - e).toNat
  have shift : m.log2 ≤ 52 + (targetOf m e - e).toNat ∧
      (-1074 < targetOf m e → m.log2 = 52 + (targetOf m e - e).toNat) := by
    unfold targetOf at below ⊢
    omega
  generalize (targetOf m e - e).toNat = k at *
  have high : m / 2 ^ k < 2 ^ 53 := by
    rw [Nat.div_lt_iff_lt_mul (Nat.two_pow_pos k), ← Nat.pow_add]
    exact Nat.lt_of_lt_of_le Nat.lt_log2_self (Nat.pow_le_pow_right (by decide) (by omega))
  refine ⟨by omega, fun normal => ?_⟩
  have low : 2 ^ 52 ≤ m / 2 ^ k := by
    rw [Nat.le_div_iff_mul_le (Nat.two_pow_pos k), ← Nat.pow_add, ← shift.2 normal]
    exact Nat.log2_self_le (Nat.ne_of_gt pos)
  omega

/-- **Rounding `m · 2 ^ e`.** The natural `m` is shifted to `targetOf m e`, and what is left is `rounded`. -/
theorem roundWithAccuracy_eq (sign : Sign) {m : Nat} {e : Int} (pos : 0 < m) (below : e ≤ targetOf m e) :
    roundWithAccuracy .binary64 sign m e .exact =
      rounded sign (roundShift m (targetOf m e - e).toNat) (targetOf m e) := by
  obtain ⟨high, -⟩ := roundShift_target_bounds pos below
  have least : -1074 ≤ targetOf m e := by
    unfold targetOf
    omega
  unfold roundWithAccuracy
  rw [shiftToTargetExponent_eq below]
  dsimp only
  rw [roundedMantissa_shiftRight_eq]
  generalize roundShift m (targetOf m e - e).toNat = r at *
  -- Rounding up may carry into a further bit, which the second shift of the model takes off again.
  by_cases carry : r < 2 ^ 53
  · rw [shiftToTargetExponent_of_lt carry least]
    by_cases zero : r = 0
    · subst zero
      rfl
    · rw [rounded_of_lt sign (Nat.pos_of_ne_zero zero) carry]
      exact dif_neg zero
  · have all : r = 2 ^ 53 := by omega
    subst all
    rw [shiftToTargetExponent_carry least]
    rfl

/-- A mantissa of 53 bits with zeros behind it is not changed by rounding. -/
theorem roundWithAccuracy_exact (sign : Sign) {m k : Nat} {e : Int} (low : 2 ^ 52 ≤ m) (high : m < 2 ^ 53)
    (least : -1074 ≤ e + k) :
    roundWithAccuracy .binary64 sign (m * 2 ^ k) e .exact =
      .finite sign m (e + k) (Nat.lt_of_lt_of_le (Nat.two_pow_pos 52) low) := by
  have pos : 0 < m * 2 ^ k := Nat.mul_pos (by omega) (Nat.two_pow_pos k)
  have log : (m * 2 ^ k).log2 = 52 + k := by
    rw [Nat.log2_eq_iff (Nat.ne_of_gt pos), Nat.pow_add, Nat.add_right_comm, Nat.pow_add]
    exact ⟨Nat.mul_le_mul_right _ low, Nat.mul_lt_mul_of_pos_right high (Nat.two_pow_pos k)⟩
  have target : targetOf (m * 2 ^ k) e = e + k := by
    rw [targetOf, log]
    omega
  have shift : (e + k - e).toNat = k := by omega
  rw [roundWithAccuracy_eq sign pos (by omega), target, shift, roundShift_mul,
    rounded_of_lt sign (by omega) high]

/-- A number with enough bits, or below the least exponent, is `rounded` as it stands. -/
theorem round_of_le (sign : Sign) {m : Nat} {e : Int} (pos : 0 < m) (below : e ≤ targetOf m e) :
    UnpackedFloat.round .binary64 sign m e =
      rounded sign (roundShift m (targetOf m e - e).toNat) (targetOf m e) := by
  have none : (e - targetOf m e).toNat = 0 := by omega
  rw [← roundWithAccuracy_eq sign pos below, UnpackedFloat.round, targetExponent_eq,
    UnpackedFloat.decreaseExponent, none]
  show roundWithAccuracy .binary64 sign m (e - ((0 : Nat) : Int)) .exact = _
  rw [Int.natCast_zero, Int.sub_zero]

/-- Zeros behind the bits of a natural make a mantissa of 53 bits: `2 ^ 52 ≤ m * 2 ^ k ∧ m * 2 ^ k < 2 ^ 53`. -/
theorem mantissa_bounds {m k : Nat} (pos : 0 < m) (log : m.log2 + k = 52) :
    2 ^ 52 ≤ m * 2 ^ k ∧ m * 2 ^ k < 2 ^ 53 := by
  constructor
  · rw [← log, Nat.pow_add]
    exact Nat.mul_le_mul_right _ (Nat.log2_self_le (Nat.ne_of_gt pos))
  · rw [show 53 = m.log2 + 1 + k by omega, Nat.pow_add]
    exact Nat.mul_lt_mul_of_pos_right Nat.lt_log2_self (Nat.two_pow_pos k)

/-- A number with too few bits gets zeros behind them, and is not changed. -/
theorem round_of_lt (sign : Sign) {m k : Nat} {e : Int} (pos : 0 < m) (log : m.log2 + k = 52)
    (least : -1074 ≤ e - k) :
    UnpackedFloat.round .binary64 sign m e =
      .finite sign (m * 2 ^ k) (e - k) (Nat.mul_pos pos (Nat.two_pow_pos k)) := by
  obtain ⟨low, high⟩ := mantissa_bounds pos log
  have target : targetOf m e = e - k := by
    unfold targetOf
    omega
  have shift : (e - (e - k)).toNat = k := by omega
  have unchanged := roundWithAccuracy_exact sign low high (show -1074 ≤ e - k + ((0 : Nat) : Int) by omega)
  rw [Nat.pow_zero, Nat.mul_one, Int.natCast_zero, Int.add_zero] at unchanged
  rw [UnpackedFloat.round, targetExponent_eq, target, UnpackedFloat.decreaseExponent, shift, Nat.shiftLeft_eq]
  exact unchanged

/-- The conversion of a positive integer rounds it:
`UnpackedFloat.ofUInt64 .binary64 n = UnpackedFloat.round .binary64 .positive n.toNat 0`. -/
theorem ofUInt64_eq_round {n : UInt64} (pos : 0 < n.toNat) :
    UnpackedFloat.ofUInt64 .binary64 n = UnpackedFloat.round .binary64 .positive n.toNat 0 := by
  have greater : compare (n.toNat : Int) 0 = .gt := Int.compare_eq_gt.2 (by omega)
  show UnpackedFloat.normalize .binary64 (n.toNat : Int) 0 .positive = _
  rw [UnpackedFloat.normalize, greater]
  rfl

end OpCycle.Binary64
