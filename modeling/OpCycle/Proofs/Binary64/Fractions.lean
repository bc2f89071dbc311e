import OpCycle.Proofs.Binary64.Order
import OpCycle.Proofs.Text.Decimal

/-! # Fractions of one
A natural below `2 ^ 53` is a float, and so is its quotient by `2 ^ 53`. Such a fraction of a float, rounded, is less
than the float, unless this is so near zero that the step below it is not finer than half of what the fraction leaves
out. -/

namespace OpCycle

namespace Decimal

/-- The search for the number of digits ends where there are enough: `lengthFrom n start ≤ places`. -/
theorem lengthFrom_le {n start places : Nat} (enough : n < 10 ^ places) (below : start ≤ places) :
    lengthFrom n start ≤ places := by
  fun_induction lengthFrom n start with
  | case1 start _ => exact below
  | case2 start more ih =>
    refine ih (Nat.lt_of_le_of_ne below ?_)
    rintro rfl
    exact more enough

end Decimal

namespace Binary64

open Float.Model (Format UnpackedFloat)
open Float.Model.UnpackedFloat (Sign roundWithAccuracy)

/-! ## Small naturals -/

/-- The float of a natural below `2 ^ 53` is the natural. -/
theorem content_toFloat {n : UInt64} {h k : Nat} (number : n.toNat = h) (pos : 0 < h) (log : h.log2 + k = 52) :
    content n.toFloat = .finite .positive (h * 2 ^ k) (-k) (Nat.mul_pos pos (Nat.two_pow_pos k)) := by
  subst number
  obtain ⟨low, high⟩ := mantissa_bounds pos log
  show stored (UnpackedFloat.ofUInt64 .binary64 n) = _
  rw [ofUInt64_eq_round pos, round_of_lt .positive pos log (by omega), Int.zero_sub]
  exact stored_finite _ _ ⟨high, by omega, fun _ => low⟩ (by omega)

/-- A natural below `2 ^ 53`, written with at most sixteen digits. -/
theorem bounds_of_log2 {h k : Nat} (log : h.log2 + k = 52) : h < 2 ^ 53 ∧ Decimal.length h ≤ 16 := by
  have high : h < 2 ^ 53 := Nat.lt_of_lt_of_le Nat.lt_log2_self (Nat.pow_le_pow_right (by decide) (by omega))
  exact ⟨high, Decimal.lengthFrom_le (Nat.lt_of_lt_of_le high (by decide)) (by omega)⟩

/-- The float that is written like a natural below `2 ^ 53` is the natural. -/
theorem content_ofDecimal {h k : Nat} (pos : 0 < h) (log : h.log2 + k = 52) :
    content (ofDecimal h 0) = .finite .positive (h * 2 ^ k) (-k) (Nat.mul_pos pos (Nat.two_pow_pos k)) := by
  obtain ⟨low, high⟩ := mantissa_bounds pos log
  obtain ⟨small, length⟩ := bounds_of_log2 log
  have number : h.toUInt64.toNat = h := Nat.mod_eq_of_lt (by omega)
  -- The number of digits is in range, and the float is computed as a multiple of one.
  have scaled : ofDecimal h 0 = h.toUInt64.toFloat * Float.ofBits 0x3ff0000000000000 := by
    unfold ofDecimal
    dsimp only
    rw [if_neg (by omega), if_neg (by omega), Float.ofScientific, dif_pos ⟨small, by decide⟩]
    rfl
  have one : content (Float.ofBits 0x3ff0000000000000) = .finite .positive (2 ^ 52) (-52) (Nat.two_pow_pos 52) := rfl
  have exponent : -(k : Int) + -52 + (52 : Nat) = -k := by omega
  rw [scaled, content_mul, content_toFloat number pos log, one]
  show stored (roundWithAccuracy .binary64 .positive (h * 2 ^ k * 2 ^ 52) (-k + -52) .exact) = _
  rw [roundWithAccuracy_exact .positive low high (by omega), exponent]
  exact stored_finite _ _ ⟨high, by omega, fun _ => low⟩ (by omega)

/-- The quotient of a mantissa of 53 bits by `2 ^ 53`, with a further bit. -/
theorem divCore_two_pow {m : Nat} {e : Int} (low : 2 ^ 52 ≤ m) (high : m < 2 ^ 53) (least : -1020 ≤ e) :
    UnpackedFloat.divCore .binary64 m e (2 ^ 52) 1 = (m * 2 ^ 1, e - 54, .exact) := by
  have log : m.log2 = 52 := (Nat.log2_eq_iff (by omega)).2 ⟨low, high⟩
  have target : min (e - 1) (Format.binary64.targetExponent
      (Float.Model.totalExponent m e - Float.Model.totalExponent (2 ^ 52) 1)) = e - 54 := by
    rw [targetExponent_eq_max, Float.Model.totalExponent, Float.Model.totalExponent, log, Nat.log2_two_pow]
    omega
  have shift : (e - 1 - (e - 54)).toNat = 53 := by omega
  have shifted : m <<< 53 = m * 2 ^ 1 * 2 ^ 52 := by
    rw [Nat.shiftLeft_eq]
    omega
  rw [UnpackedFloat.divCore, target, shift, shifted, Nat.mul_div_cancel _ (Nat.two_pow_pos 52), Nat.mul_mod_left]
  rfl

/-- The quotient by `2 ^ 53` is exact. -/
theorem content_fraction {h k : Nat} (pos : 0 < h) (log : h.log2 + k = 52) :
    content (ofDecimal h 0 / 9007199254740992) =
      .finite .positive (h * 2 ^ k) (-k - 53) (Nat.mul_pos pos (Nat.two_pow_pos k)) := by
  obtain ⟨low, high⟩ := mantissa_bounds pos log
  have divisor : content 9007199254740992 = .finite .positive (2 ^ 52) 1 (Nat.two_pow_pos 52) := rfl
  have exponent : -(k : Int) - 54 + (1 : Nat) = -k - 53 := by omega
  rw [content_div, content_ofDecimal pos log, divisor, UnpackedFloat.div,
    divCore_two_pow low high (by omega)]
  show stored (roundWithAccuracy .binary64 .positive (h * 2 ^ k * 2 ^ 1) (-k - 54) .exact) = _
  rw [roundWithAccuracy_exact .positive low high (by omega), exponent]
  exact stored_finite _ _ ⟨high, by omega, fun _ => low⟩ (by omega)

/-! ## Products -/

/-- Positive floats are compared by their exponents, and by their mantissas where these are the same:
`(UnpackedFloat.finite .positive r t posR).compare (.finite .positive m e pos) = some .lt`. -/
theorem compare_finite_lt {r m : Nat} {t e : Int} {posR : 0 < r} {pos : 0 < m} (less : t < e ∨ t = e ∧ r < m) :
    (UnpackedFloat.finite .positive r t posR).compare (.finite .positive m e pos) = some .lt := by
  show some ((compare t e).then (compare r m)) = some .lt
  rcases less with exponent | ⟨rfl, mantissa⟩
  · rw [Int.compare_eq_lt.2 exponent]
    rfl
  · rw [Int.compare_eq_eq.2 rfl, Nat.compare_eq_lt.2 mantissa]
    rfl

/-- A rounded number that is less than a float in units of its own exponent is less than the float:
`(stored (rounded .positive r t)).compare (.finite .positive m e pos) = some .lt`. -/
theorem stored_rounded_lt {r m : Nat} {t e : Int} (pos : 0 < m) (canonical : IsCanonical m e) (most : e ≤ 971)
    (high : r ≤ 2 ^ 53) (least : -1074 ≤ t) (normal : -1074 < t → 2 ^ 52 ≤ r) (below : t ≤ e)
    (less : r < m * 2 ^ (e - t).toNat) :
    (stored (rounded .positive r t)).compare (.finite .positive m e pos) = some .lt := by
  have one : t = e → (e - t).toNat = 0 := by omega
  rcases Nat.eq_zero_or_pos r with rfl | posR
  · show (stored (.zero .positive)).compare _ = _
    rw [stored_zero]
    rfl
  by_cases carry : r < 2 ^ 53
  · rw [rounded_of_lt _ posR carry, stored_finite _ posR ⟨carry, least, normal⟩ (by omega)]
    apply compare_finite_lt
    rcases Int.lt_or_eq_of_le below with exponent | same
    · exact .inl exponent
    · rw [one same, Nat.pow_zero, Nat.mul_one] at less
      exact .inr ⟨same, less⟩
  · -- With a carry the float is at least at the next exponent, since it has no more than 53 bits.
    obtain rfl : r = 2 ^ 53 := by omega
    have next : t + 1 ≤ e := by
      refine Int.not_lt.1 fun same => ?_
      rw [one (by omega), Nat.pow_zero, Nat.mul_one] at less
      exact absurd canonical.high (by omega)
    rw [rounded_carry, stored_finite _ _ ⟨by decide, by omega, fun _ => Nat.le_refl _⟩ (by omega)]
    apply compare_finite_lt
    rcases Int.lt_or_eq_of_le next with exponent | same
    · exact .inl exponent
    · have two : (e - t).toNat = 1 := by omega
      rw [two] at less
      exact .inr ⟨same, by omega⟩

/-- A fraction of a natural in units of a power of two, rounded to these units, is less than the natural if it has
more than 53 bits: `roundShift p s < n`. -/
theorem roundShift_fraction_lt {h p n s : Nat} (high : h < 2 ^ 53) (many : 2 ^ 52 < n)
    (product : 2 ^ 53 * p = h * (n * 2 ^ s)) : roundShift p s < n := by
  have pos := Nat.two_pow_pos s
  have left : 2 ^ 52 * 2 ^ s < n * 2 ^ s := Nat.mul_lt_mul_of_pos_right many pos
  have most : h * (n * 2 ^ s) ≤ (2 ^ 53 - 1) * (n * 2 ^ s) := Nat.mul_le_mul_right _ (by omega)
  apply roundShift_lt
  omega

/-- The product of two mantissas of 53 bits has 105 bits or 106, and not 106 if one of them is the least:
`104 ≤ (m * n).log2 ∧ (m * n).log2 ≤ 105 ∧ (n = 2 ^ 52 → (m * n).log2 ≤ 104)`. -/
theorem log2_mul_bounds {m n : Nat} (lowM : 2 ^ 52 ≤ m) (highM : m < 2 ^ 53) (lowN : 2 ^ 52 ≤ n)
    (highN : n < 2 ^ 53) : 104 ≤ (m * n).log2 ∧ (m * n).log2 ≤ 105 ∧ (n = 2 ^ 52 → (m * n).log2 ≤ 104) := by
  have low : 2 ^ 52 * 2 ^ 52 ≤ m * n := Nat.mul_le_mul lowM lowN
  have high : m * n < 2 ^ 53 * 2 ^ 53 := Nat.mul_lt_mul_of_lt_of_lt highM highN
  have nonzero : m * n ≠ 0 := by omega
  refine ⟨(Nat.le_log2 nonzero).2 low, Nat.le_of_lt_succ ((Nat.log2_lt nonzero).2 high), ?_⟩
  rintro rfl
  exact Nat.le_of_lt_succ ((Nat.log2_lt nonzero).2 (by omega))

/-- The fraction `h / 2 ^ 53` of a mantissa of 53 bits, rounded, is less than the mantissa, unless this is the least
one at the least exponent. -/
theorem fraction_mul_lt {h k m : Nat} {e : Int} (pos : 0 < h) (log : h.log2 + k = 52) (posM : 0 < m)
    (canonical : IsCanonical m e) (most : e ≤ 971) (low : 2 ^ 52 ≤ m) (above : -1074 < e ∨ 2 ^ 52 < m) :
    (stored (UnpackedFloat.mul .binary64
      (.finite .positive (h * 2 ^ k) (-k - 53) (Nat.mul_pos pos (Nat.two_pow_pos k)))
      (.finite .positive m e posM))).compare (.finite .positive m e posM) = some .lt := by
  obtain ⟨lowH, highH⟩ := mantissa_bounds pos log
  obtain ⟨least, greatest, even⟩ := log2_mul_bounds lowH highH low canonical.high
  have posP : 0 < h * 2 ^ k * m := Nat.mul_pos (by omega) posM
  have target : targetOf (h * 2 ^ k * m) (-k - 53 + e) = max ((h * 2 ^ k * m).log2 + (-k - 53 + e) - 52) (-1074) :=
    rfl
  have bounds := roundShift_target_bounds posP (show -k - 53 + e ≤ targetOf (h * 2 ^ k * m) (-k - 53 + e) by omega)
  show (stored (roundWithAccuracy .binary64 .positive (h * 2 ^ k * m) (-k - 53 + e) .exact)).compare _ = _
  rw [roundWithAccuracy_eq .positive posP (by omega)]
  generalize targetOf (h * 2 ^ k * m) (-k - 53 + e) = t at *
  have start := canonical.least
  have below : t ≤ e := by omega
  -- In units of the product's last place the float has more than 53 bits.
  have many : 2 ^ 52 < m * 2 ^ (e - t).toNat := by
    by_cases same : t = e
    · have more : 2 ^ 52 < m := by omega
      rw [same, Int.sub_self]
      exact Nat.lt_of_lt_of_eq more (Nat.mul_one m).symm
    · have twice : 2 ^ 1 ≤ 2 ^ (e - t).toNat := Nat.pow_le_pow_right (by decide) (by omega)
      exact Nat.lt_of_lt_of_le (by decide) (Nat.mul_le_mul low twice)
  have shifts : (e - t).toNat + (t - (-k - 53 + e)).toNat = 53 + k := by omega
  have product : 2 ^ 53 * (h * 2 ^ k * m) = h * (m * 2 ^ (e - t).toNat * 2 ^ (t - (-k - 53 + e)).toNat) := by
    rw [Nat.mul_assoc m, ← Nat.pow_add, shifts, Nat.pow_add]
    ac_rfl
  have small := (bounds_of_log2 log).1
  exact stored_rounded_lt posM canonical most bounds.1 (by omega) bounds.2 below
    (roundShift_fraction_lt small many product)

/-- The least float of full precision, `2 ^ -1022`. -/
def leastNormal : Float := Float.ofBits 0x0010000000000000

/-- The content of the least normal float, `2 ^ 52` units of `2 ^ (-1074)`. -/
theorem content_leastNormal : content leastNormal = .finite .positive (2 ^ 52) (-1074) (Nat.two_pow_pos 52) := rfl

/-- The content of a finite float above the least one of full precision. -/
theorem exists_of_leastNormal_lt {y : Float} (finite : y.isFinite = true) (above : leastNormal < y) :
    ∃ m e pos, content y = .finite .positive m e pos ∧ IsCanonical m e ∧ e ≤ 971 ∧ 2 ^ 52 ≤ m ∧
      (-1074 < e ∨ 2 ^ 52 < m) := by
  rw [lt_iff, content_leastNormal] at above
  rw [isFinite_eq] at finite
  cases value : content y with
  | notANumber => rw [value] at finite; cases finite
  | infinity s => rw [value] at finite; cases finite
  | zero s => rw [value] at above; cases above
  | finite s m e pos =>
    rw [value] at above
    cases s with
    | negative => cases above
    | positive =>
      obtain ⟨canonical, most⟩ := isCanonical_of_content value
      have order : (compare (-1074) e).then (compare (2 ^ 52) m) = .lt := Option.some.inj above
      have greater : -1074 < e ∨ 2 ^ 52 < m := by
        rcases Ordering.then_eq_lt.1 order with exponent | ⟨-, mantissa⟩
        · exact .inl (Int.compare_eq_lt.1 exponent)
        · exact .inr (Nat.compare_eq_lt.1 mantissa)
      have low : 2 ^ 52 ≤ m := by
        rcases greater with exponent | mantissa
        · exact canonical.normal exponent
        · exact Nat.le_of_lt mantissa
      exact ⟨m, e, pos, rfl, canonical, most, low, greater⟩

/-- **A fraction of a float is less than the float**, if the float is above `leastNormal`. -/
theorem mul_fraction_lt {h k : Nat} {x y : Float} (pos : 0 < h) (log : h.log2 + k = 52)
    (fraction : content x = .finite .positive (h * 2 ^ k) (-k - 53) (Nat.mul_pos pos (Nat.two_pow_pos k)))
    (finite : y.isFinite = true) (above : leastNormal < y) : x * y < y := by
  obtain ⟨m, e, posM, value, canonical, most, low, greater⟩ := exists_of_leastNormal_lt finite above
  rw [lt_iff, content_mul, fraction, value]
  exact fraction_mul_lt pos log posM canonical most low greater

/-- Nothing of a float is less than the float: `x * y < y`. -/
theorem mul_zero_lt {x y : Float} (zero : content x = .zero .positive) (finite : y.isFinite = true)
    (above : leastNormal < y) : x * y < y := by
  obtain ⟨m, e, posM, value, -⟩ := exists_of_leastNormal_lt finite above
  have product : UnpackedFloat.mul .binary64 (.zero .positive) (.finite .positive m e posM) = .zero .positive := rfl
  rw [lt_iff, content_mul, zero, value, product, stored_zero]
  rfl

end Binary64

end OpCycle
