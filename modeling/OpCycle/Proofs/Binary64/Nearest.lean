import Mathlib
import OpCycle.Proofs.Binary64.Content

/-! # The float of a large integer
Integers from `2 ^ 63` on take more bits than a float has. Their floats are the nearest ones: eleven bits are
shifted out and the rest is rounded, and no other float is nearer, since below `2 ^ 63` all are further away
and above it all are multiples of `2 ^ 11`. -/

namespace OpCycle.Binary64

open Float.Model (Format UnpackedFloat)

/-! ## Rounding by shifts -/

/-- No other multiple of `2 ^ k` is nearer to `n` than `roundShift n k` of them, and of two equally near ones the even
one is chosen. -/
theorem roundShift_nearest (n k : Nat) (j : Int) :
    ((roundShift n k : Int) * 2 ^ k - n).natAbs ≤ (j * 2 ^ k - n).natAbs ∧
      (((roundShift n k : Int) * 2 ^ k - n).natAbs = (j * 2 ^ k - n).natAbs →
        j = roundShift n k ∨ roundShift n k % 2 = 0) := by
  have pos := Nat.two_pow_pos k
  have below := Nat.mod_lt n pos
  have split := Nat.div_add_mod n (2 ^ k)
  have step : (2 : Int) ^ k = ((2 ^ k : Nat) : Int) := (Int.natCast_pow 2 k).symm
  rw [step, roundShift, show Nat.pow 2 k = 2 ^ k from rfl]
  generalize 2 ^ k = unit at *
  generalize n / unit = quotient at *
  generalize n % unit = rest at *
  have whole : (n : Int) = quotient * unit + rest := by
    rw [← split, Int.natCast_add, Int.natCast_mul, Int.mul_comm]
  have next : ((quotient + 1 : Nat) : Int) * unit = quotient * unit + unit := by
    rw [Int.natCast_add, Int.add_mul, Int.natCast_one, Int.one_mul]
  -- The other multiple is the quotient's or the one above, or a whole step further down or up.
  have place : j * unit ≤ quotient * unit - unit ∨ j = quotient ∨ j = (quotient + 1 : Nat) ∨
      quotient * unit + unit + unit ≤ j * unit := by
    rcases Int.lt_trichotomy j quotient with less | same | more
    · have bound := Int.mul_le_mul_of_nonneg_right (Int.le_sub_one_of_lt less) (Int.natCast_nonneg unit)
      rw [Int.sub_mul, Int.one_mul] at bound
      exact .inl bound
    · exact .inr (.inl same)
    · by_cases one : j = quotient + 1
      · exact .inr (.inr (.inl one))
      · have bound := Int.mul_le_mul_of_nonneg_right (show (quotient : Int) + 2 ≤ j by omega)
          (Int.natCast_nonneg unit)
        rw [Int.add_mul] at bound
        exact .inr (.inr (.inr (by omega)))
  by_cases up : unit < 2 * rest ∨ 2 * rest = unit ∧ quotient % 2 = 1
  · rw [if_pos up, next]
    rcases place with less | same | one | more
    · omega
    · rw [same]
      omega
    · rw [one, next]
      omega
    · omega
  · rw [if_neg up]
    rcases place with less | same | one | more
    · omega
    · rw [same]
      omega
    · rw [one, next]
      omega
    · omega

/-- The quotient of a large integer has 53 bits, or is rounded up to the least number of 54:
`2 ^ 52 ≤ roundShift n 11 ∧ roundShift n 11 ≤ 2 ^ 53`. -/
theorem roundShift_bounds {n : Nat} (low : 2 ^ 63 ≤ n) (high : n < 2 ^ 64) :
    2 ^ 52 ≤ roundShift n 11 ∧ roundShift n 11 ≤ 2 ^ 53 := by
  rw [roundShift, show Nat.pow 2 11 = 2048 from rfl]
  split <;> omega

/-! ## Normal floats -/

/-- A natural from `2 ^ 63` to below `2 ^ 64` is rounded to 53 bits. -/
theorem round_large {n : Nat} (low : 2 ^ 63 ≤ n) (high : n < 2 ^ 64) :
    ∃ m e pos, UnpackedFloat.round .binary64 .positive n 0 = .finite .positive m e pos ∧
      2 ^ 52 ≤ m ∧ m < 2 ^ 53 ∧ 0 ≤ e ∧ e ≤ 12 ∧ m * 2 ^ e.toNat = roundShift n 11 * 2 ^ 11 ∧
      (roundShift n 11 % 2 = 0 → m % 2 = 0) := by
  -- There are 64 bits, eleven more than a mantissa has.
  have log : n.log2 = 63 := (Nat.log2_eq_iff (by omega)).2 ⟨low, high⟩
  have target : targetOf n 0 = 11 := by
    rw [targetOf, log]
    rfl
  have shifted := round_of_le .positive (show 0 < n by omega) (show 0 ≤ targetOf n 0 by omega)
  obtain ⟨least, most⟩ := roundShift_bounds low high
  rw [target, show ((11 : Int) - 0).toNat = 11 from rfl] at shifted
  rw [shifted]
  by_cases carry : roundShift n 11 < 2 ^ 53
  · exact ⟨roundShift n 11, 11, _, rounded_of_lt _ (by omega) carry _, least, carry, by decide, by decide, rfl, id⟩
  · have all : roundShift n 11 = 2 ^ 53 := by omega
    rw [all]
    exact ⟨2 ^ 52, 12, _, rounded_carry _ _, by decide, by decide, by decide, by decide, by decide,
      fun _ => by decide⟩

/-- The bits of a positive float are its exponent's and its mantissa's. -/
theorem toNat_packComponents {field fraction : Nat} (hField : field < 2 ^ 11) (hFraction : fraction < 2 ^ 52) :
    (UnpackedFloat.packComponents .binary64 .positive (BitVec.ofNat 11 field) (BitVec.ofNat 52 fraction)).toNat =
      field * 2 ^ 52 + fraction := by
  have exponent : (BitVec.ofNat Format.binary64.exponentBits field).toNat = field := by
    rw [BitVec.toNat_ofNat]
    exact Nat.mod_eq_of_lt hField
  have mantissa : (BitVec.ofNat Format.binary64.mantissaBitsWithoutImplicit fraction).toNat = fraction := by
    rw [BitVec.toNat_ofNat]
    exact Nat.mod_eq_of_lt hFraction
  have sign : (UnpackedFloat.Sign.positive.toBitVec).toNat = 0 := rfl
  rw [UnpackedFloat.packComponents, BitVec.toNat_append, BitVec.toNat_append, exponent, mantissa,
    sign, Nat.zero_shiftLeft, Nat.zero_or, ← Nat.shiftLeft_add_eq_or_of_lt hFraction, Nat.shiftLeft_eq]

/-- The content of a positive normal float by its bits:
`parts x = .finite false (2 ^ 52 + fraction) ((field : Int) - 1075)`. -/
theorem parts_of_bits {x : Float} {field fraction : Nat} (bits : x.toBits.toNat = field * 2 ^ 52 + fraction)
    (hFraction : fraction < 2 ^ 52) (least : 0 < field) (most : field < 2047) :
    parts x = .finite false (2 ^ 52 + fraction) ((field : Int) - 1075) := by
  have field' : (field * 2 ^ 52 + fraction) / 2 ^ 52 % 2 ^ 11 = field := by omega
  have fraction' : (field * 2 ^ 52 + fraction) % 2 ^ 52 = fraction := by omega
  have sign : (field * 2 ^ 52 + fraction).testBit 63 = false := Nat.testBit_lt_two_pow (by omega)
  unfold parts
  dsimp only
  rw [bits, show Nat.pow 2 52 = 2 ^ 52 from rfl, show Nat.pow 2 11 = 2 ^ 11 from rfl, field', fraction', sign,
    if_neg (Nat.ne_of_lt most), if_neg (Nat.ne_of_gt least)]

/-- The content of a normal float that was packed:
`parts ⟨Float.Model.pack (.finite .positive m e pos)⟩ = .finite false m e`. -/
theorem parts_pack {m : Nat} {e : Int} (pos : 0 < m) (low : 2 ^ 52 ≤ m) (high : m < 2 ^ 53)
    (least : -1074 ≤ e) (most : e ≤ 971) :
    parts ⟨Float.Model.pack (.finite .positive m e pos)⟩ = .finite false m e := by
  obtain ⟨fraction, rfl⟩ := Nat.exists_eq_add_of_le low
  have bits : (Float.ofModel (Float.Model.pack (.finite .positive (2 ^ 52 + fraction) e pos))).toBits.toNat =
      (e + 1075).toNat * 2 ^ 52 + fraction := by
    show (UnpackedFloat.pack .binary64 (.finite .positive (2 ^ 52 + fraction) e pos)).toNat = _
    rw [pack_normal .positive pos (by omega) most]
    exact toNat_packComponents (by omega) (by omega)
  have exponent : ((e + 1075).toNat : Int) - 1075 = e := by omega
  rw [parts_of_bits bits (by omega) (by omega) (by omega), exponent]

/-- The `parts` of the float of a large integer are the integer rounded to 53 bits. -/
theorem parts_toFloat {n : UInt64} (low : 2 ^ 63 ≤ n.toNat) :
    ∃ m e, parts n.toFloat = .finite false m e ∧ 0 ≤ e ∧
      m * 2 ^ e.toNat = roundShift n.toNat 11 * 2 ^ 11 ∧ (roundShift n.toNat 11 % 2 = 0 → m % 2 = 0) := by
  obtain ⟨m, e, pos, rounded, lowM, highM, least, most, same, even⟩ := round_large low n.toNat_lt
  refine ⟨m, e, ?_, least, same, even⟩
  rw [UInt64.toFloat, Float.Model.ofUInt64, ofUInt64_eq_round (by omega), rounded]
  exact parts_pack pos lowM highM (by omega) (by omega)

/-! ## The nearest float -/

/-- The least positive float is `2 ^ -places`. -/
@[irreducible] def places : Nat := 1074

/-- How often the least positive float goes into one: `2 ^ places`. -/
def unitsInOne : Nat := 2 ^ places

/-- There are units in one: `0 < unitsInOne`. -/
theorem unitsInOne_pos : 0 < unitsInOne := Nat.two_pow_pos places

/-- The float `x`, if it is finite, as a multiple of the least positive one. -/
def units? (x : Float) : Option Int :=
  match parts x with
  | .finite negative mantissa exponent =>
    some (Decimal.signed negative (mantissa * 2 ^ (exponent + places).toNat))
  | _ => none

/-- No finite float is nearer to `n` than `x`, and where others are as near as it, it is the one with an even
mantissa. -/
def IsNearest (x : Float) (n : Nat) : Prop :=
  ∃ negative m e u, parts x = .finite negative m e ∧ units? x = some u ∧
    ∀ y v, units? y = some v →
      (u - n * unitsInOne).natAbs ≤ (v - n * unitsInOne).natAbs ∧
      ((u - n * unitsInOne).natAbs = (v - n * unitsInOne).natAbs → v = u ∨ m % 2 = 0)

/-- A finite float has at most 53 bits, from the least exponent on: `m < 2 ^ 53 ∧ -(places : Int) ≤ e`. -/
theorem bounds_of_parts {x : Float} {negative : Bool} {m : Nat} {e : Int}
    (h : parts x = .finite negative m e) : m < 2 ^ 53 ∧ -(places : Int) ≤ e := by
  have fraction := Nat.mod_lt x.toBits.toNat (Nat.two_pow_pos 52)
  unfold places
  unfold parts at h
  dsimp only at h
  rw [show Nat.pow 2 52 = 2 ^ 52 from rfl, show Nat.pow 2 11 = 2 ^ 11 from rfl] at h
  split at h
  · split at h
    · cases h
    · cases h
  · split at h
    · cases h
      omega
    · cases h
      omega

/-- A finite float is a multiple of `2 ^ 11`, or less than `2 ^ 63`. -/
theorem units_cases {y : Float} {v : Int} (h : units? y = some v) :
    (∃ j : Int, v = j * 2 ^ 11 * unitsInOne) ∨ v < 2 ^ 63 * unitsInOne := by
  unfold units? at h
  split at h
  · next negative m e content =>
    obtain ⟨high, least⟩ := bounds_of_parts content
    cases h
    -- Below the exponent eleven a float may lie between the multiples, but 53 bits do not reach `2 ^ 63` there.
    by_cases large : 11 ≤ e
    · have exponent : (e + places).toNat = (e - 11).toNat + 11 + places := by omega
      refine .inl ⟨Decimal.signed negative (m * 2 ^ (e - 11).toNat), ?_⟩
      rw [exponent, Nat.pow_add, Nat.pow_add, ← Nat.mul_assoc, ← Nat.mul_assoc, Decimal.signed_mul,
        Decimal.signed_mul]
      rfl
    · have power : 2 ^ (e + places).toNat ≤ 2 ^ 10 * unitsInOne := by
        rw [unitsInOne, ← Nat.pow_add]
        exact Nat.pow_le_pow_right (by decide) (by omega)
      have bound : m * 2 ^ (e + places).toNat < 2 ^ 63 * unitsInOne := by
        have whole := Nat.mul_lt_mul_of_lt_of_le high power (Nat.mul_pos (by decide) unitsInOne_pos)
        rw [← Nat.mul_assoc] at whole
        exact whole
      have cast := Int.ofNat_lt.2 bound
      rw [Int.natCast_mul _ unitsInOne] at cast
      exact .inr (Int.lt_of_le_of_lt (Decimal.signed_le _ _) cast)
  · cases h

/-- What is further down is further away: `(low - n).natAbs < (v - n).natAbs`. -/
theorem natAbs_sub_lt {v low n : Int} (below : v < low) (start : low ≤ n) :
    (low - n).natAbs < (v - n).natAbs := by omega

/-- **The float of a large integer is the nearest one**: `IsNearest n.toFloat n.toNat`. -/
theorem isNearest_toFloat {n : UInt64} (low : 2 ^ 63 ≤ n.toNat) : IsNearest n.toFloat n.toNat := by
  obtain ⟨m, e, content, least, same, even⟩ := parts_toFloat low
  have units : units? n.toFloat = some ((roundShift n.toNat 11 : Int) * 2 ^ 11 * unitsInOne) := by
    have exponent : (e + places).toNat = e.toNat + places := by omega
    rw [units?, content]
    dsimp only
    rw [exponent, Nat.pow_add, ← Nat.mul_assoc, same, Decimal.signed_mul, Decimal.signed_mul]
    rfl
  refine ⟨false, m, e, _, content, units, fun y v found => ?_⟩
  have scale (k : Int) :
      (k * unitsInOne - n.toNat * unitsInOne).natAbs = (k - n.toNat).natAbs * unitsInOne := by
    rw [← Int.sub_mul, Int.natAbs_mul, Int.natAbs_natCast]
  rcases units_cases found with ⟨j, rfl⟩ | below
  · obtain ⟨nearest, tie⟩ := roundShift_nearest n.toNat 11 j
    rw [scale, scale]
    refine ⟨Nat.mul_le_mul_right _ nearest, fun distance => ?_⟩
    rcases tie (Nat.eq_of_mul_eq_mul_right unitsInOne_pos distance) with rfl | halfEven
    · exact .inl rfl
    · exact .inr (even halfEven)
  · -- `2 ^ 63` itself is a multiple, and nearer than everything below it.
    obtain ⟨nearest, -⟩ := roundShift_nearest n.toNat 11 (2 ^ 52)
    rw [show (2 ^ 52 * 2 ^ 11 : Int) = 2 ^ 63 from rfl] at nearest
    have bound := Nat.mul_le_mul_right unitsInOne nearest
    have start : (2 ^ 63 : Int) * unitsInOne ≤ n.toNat * unitsInOne :=
      Int.mul_le_mul_of_nonneg_right (Int.ofNat_le.2 low) (Int.natCast_nonneg _)
    rw [← scale, ← scale] at bound
    have farther := Nat.lt_of_le_of_lt bound (natAbs_sub_lt below start)
    exact ⟨Nat.le_of_lt farther, fun distance => absurd distance (Nat.ne_of_lt farther)⟩

end OpCycle.Binary64
