import Mathlib
import OpCycle.Proofs.Binary64.Rounding

/-! # The content of floats
A float is an infinity, no number, a zero, or a sign with a mantissa and an exponent. The mantissa of a float has 53
bits, or fewer at the least exponent; what has this form comes out of storing it as a float unchanged, unless its
exponent is too large. -/

namespace OpCycle.Binary64

open Float.Model (Format UnpackedFloat)
open Float.Model.UnpackedFloat (Sign packComponents unpackMantissa unpackExponent unpackMantissa_packComponents
  unpackExponent_packComponents unpackSign_packComponents)

/-- The content of `x`, unpacked. -/
def content (x : Float) : UnpackedFloat := x.toModel.unpack

/-- What is left of `u` when it is packed as a float and unpacked again. -/
def stored (u : UnpackedFloat) : UnpackedFloat := UnpackedFloat.unpack .binary64 (UnpackedFloat.pack .binary64 u)

/-- Addition adds the contents and stores the sum:
`content (x + y) = stored (UnpackedFloat.add .binary64 (content x) (content y))`. -/
theorem content_add (x y : Float) :
    content (x + y) = stored (UnpackedFloat.add .binary64 (content x) (content y)) := rfl

/-- Multiplication multiplies the contents and stores the product:
`content (x * y) = stored (UnpackedFloat.mul .binary64 (content x) (content y))`. -/
theorem content_mul (x y : Float) :
    content (x * y) = stored (UnpackedFloat.mul .binary64 (content x) (content y)) := rfl

/-- Division divides the contents and stores the quotient:
`content (x / y) = stored (UnpackedFloat.div .binary64 (content x) (content y))`. -/
theorem content_div (x y : Float) :
    content (x / y) = stored (UnpackedFloat.div .binary64 (content x) (content y)) := rfl

/-- A float is finite if its content is: `x.isFinite = (content x).isFinite`. -/
theorem isFinite_eq (x : Float) : x.isFinite = (content x).isFinite := rfl

/-- Floats are ordered as their contents are: `x < y ↔ (content x).compare (content y) = some .lt`. -/
theorem lt_iff {x y : Float} : x < y ↔ (content x).compare (content y) = some .lt :=
  (@decide_eq_true_iff (UnpackedFloat.lt (content x) (content y) = true) _).trans beq_iff_eq

/-- The order `x ≤ y` of floats is that of their contents. -/
theorem le_iff {x y : Float} :
    x ≤ y ↔ (content x).compare (content y) = some .lt ∨ (content x).compare (content y) = some .eq := by
  refine (@decide_eq_true_iff (UnpackedFloat.le (content x) (content y) = true) _).trans ?_
  rw [UnpackedFloat.le]
  cases (content x).compare (content y) with
  | none => simp
  | some o => cases o <;> simp

/-- A mantissa below `2 ^ 53`, and not below `2 ^ 52` unless the exponent is the least one. -/
structure IsCanonical (m : Nat) (e : Int) : Prop where
  high : m < 2 ^ 53
  least : -1074 ≤ e
  normal : -1074 < e → 2 ^ 52 ≤ m

/-! ## Fields -/

/-- The implicit bit stands in front of the others: `(1#1 ++ m).toNat = 2 ^ 52 + m.toNat`. -/
theorem toNat_append_one (m : BitVec 52) : (1#1 ++ m).toNat = 2 ^ 52 + m.toNat := by
  rw [BitVec.toNat_append, ← Nat.shiftLeft_add_eq_or_of_lt m.isLt]
  rfl

/-- Two finite contents with the same sign, mantissa and exponent are the same:
`UnpackedFloat.finite s m e pos = .finite s n f (mantissa ▸ pos)`. -/
theorem finite_congr (s : Sign) {m n : Nat} {e f : Int} {pos : 0 < m} (mantissa : m = n) (exponent : e = f) :
    UnpackedFloat.finite s m e pos = .finite s n f (mantissa ▸ pos) := by
  subst mantissa exponent
  rfl

/-- The content of the fields of a float above the least exponent, where the first of the 53 bits is not stored. -/
theorem unpack_normal (s : Sign) {field fraction : Nat} (low : 0 < field) (high : field < 2047)
    (bits : fraction < 2 ^ 52) :
    UnpackedFloat.unpack .binary64 (packComponents .binary64 s (BitVec.ofNat 11 field) (BitVec.ofNat 52 fraction)) =
      .finite s (2 ^ 52 + fraction) ((field : Int) - 1075) (Nat.add_pos_left (Nat.two_pow_pos 52) _) := by
  have exponent : (BitVec.ofNat 11 field).toNat = field := Nat.mod_eq_of_lt (by omega)
  have mantissa : (BitVec.ofNat 52 fraction).toNat = fraction := Nat.mod_eq_of_lt bits
  have notInfinite : BitVec.ofNat 11 field ≠ -1#11 := by
    intro all
    rw [all] at exponent
    exact Nat.ne_of_lt high exponent.symm
  have notZero : BitVec.ofNat 11 field ≠ 0#11 := by
    intro none
    rw [none] at exponent
    exact Nat.ne_of_lt low exponent
  unfold UnpackedFloat.unpack
  simp only [unpackMantissa_packComponents, unpackExponent_packComponents, unpackSign_packComponents,
    Sign.ofBitVec_toBitVec]
  rw [if_neg notInfinite, if_neg notZero]
  refine finite_congr s ?_ ?_
  · rw [toNat_append_one, mantissa]
  · rw [exponent]
    rfl

/-- The content of the fields of a float at the least exponent. -/
theorem unpack_subnormal (s : Sign) {m : Nat} (pos : 0 < m) (bits : m < 2 ^ 52) :
    UnpackedFloat.unpack .binary64 (packComponents .binary64 s 0#11 (BitVec.ofNat 52 m)) =
      .finite s m (-1074) pos := by
  have mantissa : (BitVec.ofNat 52 m).toNat = m := Nat.mod_eq_of_lt bits
  have notZero : BitVec.ofNat 52 m ≠ 0#52 := by
    intro none
    rw [none] at mantissa
    exact Nat.ne_of_lt pos mantissa
  unfold UnpackedFloat.unpack
  simp only [unpackMantissa_packComponents, unpackExponent_packComponents, unpackSign_packComponents,
    Sign.ofBitVec_toBitVec]
  rw [if_neg (show ¬ 0#11 = -1#11 by decide), if_pos trivial, dif_neg notZero]
  exact finite_congr s mantissa rfl

/-! ## Storing -/

/-- The exponent field of a float. -/
theorem biased_eq (e : Int) : (e + (Format.binary64.exponentBias : Int) +
    (Format.binary64.mantissaBitsWithoutImplicit : Int)).toNat = (e + 1075).toNat := by
  show (e + ((2 ^ (11 - 1) - 1 : Nat) : Int) + (52 : Nat)).toNat = _
  omega

/-- A mantissa of 53 bits is stored without the first one. -/
theorem pack_normal (s : Sign) {fraction : Nat} {e : Int} (pos : 0 < 2 ^ 52 + fraction) (bits : fraction < 2 ^ 52)
    (most : e ≤ 971) : UnpackedFloat.pack .binary64 (.finite s (2 ^ 52 + fraction) e pos) =
      packComponents .binary64 s (BitVec.ofNat 11 (e + 1075).toNat) (BitVec.ofNat 52 fraction) := by
  have inRange : ¬ 2 ^ Format.binary64.exponentBits ≤ (e + 1075).toNat + 1 := by
    show ¬ 2 ^ 11 ≤ _
    omega
  have log : (2 ^ 52 + fraction).log2 + 1 = Format.binary64.mantissaBits := by
    rw [(Nat.log2_eq_iff (Nat.ne_of_gt pos)).2 ⟨Nat.le_add_right _ _, by omega⟩]
    rfl
  have stored : BitVec.ofNat 52 (2 ^ 52 + fraction) = BitVec.ofNat 52 fraction := by
    rw [← BitVec.toNat_inj, BitVec.toNat_ofNat, BitVec.toNat_ofNat, Nat.add_mod_left]
  rw [UnpackedFloat.pack, biased_eq, if_neg inRange, if_pos log, stored]

/-- A mantissa of fewer bits is stored at the least exponent. -/
theorem pack_subnormal (s : Sign) {m : Nat} (pos : 0 < m) (high : m < 2 ^ 52) :
    UnpackedFloat.pack .binary64 (.finite s m (-1074) pos) =
      packComponents .binary64 s 0#11 (BitVec.ofNat 52 m) := by
  have inRange : ¬ 2 ^ Format.binary64.exponentBits ≤ (-1074 + 1075 : Int).toNat + 1 := by decide
  have log : ¬ m.log2 + 1 = Format.binary64.mantissaBits := by
    have bits := (Nat.log2_lt (Nat.ne_of_gt pos)).2 high
    show ¬ m.log2 + 1 = 53
    omega
  rw [UnpackedFloat.pack, biased_eq, if_neg inRange, if_neg log]

/-- What has the form of a float is stored unchanged, if its exponent is not too large:
`stored (.finite s m e pos) = .finite s m e pos`. -/
theorem stored_finite (s : Sign) {m : Nat} {e : Int} (pos : 0 < m) (canonical : IsCanonical m e) (most : e ≤ 971) :
    stored (.finite s m e pos) = .finite s m e pos := by
  obtain ⟨high, least, normal⟩ := canonical
  by_cases low : 2 ^ 52 ≤ m
  · obtain ⟨fraction, rfl⟩ := Nat.exists_eq_add_of_le low
    have bits : fraction < 2 ^ 52 := by omega
    rw [stored, pack_normal s pos bits most, unpack_normal s (by omega) (by omega) bits]
    exact finite_congr s rfl (by omega)
  · obtain rfl : e = -1074 := by omega
    rw [stored, pack_subnormal s pos (Nat.not_le.1 low)]
    exact unpack_subnormal s pos (Nat.not_le.1 low)

/-- Infinities are stored as they are: `stored (.infinity s) = .infinity s`. -/
@[simp] theorem stored_infinity (s : Sign) : stored (.infinity s) = .infinity s := by
  cases s <;> rfl

/-- Zeros are stored as they are: `stored (.zero s) = .zero s`. -/
@[simp] theorem stored_zero (s : Sign) : stored (.zero s) = .zero s := by
  cases s <;> rfl

/-- What is no number is stored as no number: `stored .notANumber = .notANumber`. -/
@[simp] theorem stored_notANumber : stored .notANumber = .notANumber := rfl

/-- The content of a finite float other than zero has the form of a float: `IsCanonical m e ∧ e ≤ 971`. -/
theorem isCanonical_of_content {x : Float} {s : Sign} {m : Nat} {e : Int} {pos : 0 < m}
    (h : content x = .finite s m e pos) : IsCanonical m e ∧ e ≤ 971 := by
  change UnpackedFloat.unpack .binary64 x.toModel.toBits.toBitVec = _ at h
  generalize x.toModel.toBits.toBitVec = b at h
  unfold UnpackedFloat.unpack at h
  have fraction : (@unpackMantissa .binary64 b).toNat < 2 ^ 52 := BitVec.isLt _
  have field : (@unpackExponent .binary64 b).toNat < 2 ^ 11 := BitVec.isLt _
  have bias : ((Format.binary64.exponentBias : Int) + (Format.binary64.mantissaBitsWithoutImplicit : Int)) = 1075 :=
    rfl
  dsimp only at h
  -- The three shapes of the exponent field: all ones, all zeros (subnormal or zero), anything between.
  split at h
  · split at h
    · cases h
    · cases h
  split at h
  · next none =>
    split at h
    · cases h
    · injection h with _ mantissa exponent
      rw [none, bias] at exponent
      change (0 : Int) - 1075 + 1 = e at exponent
      exact ⟨⟨by omega, by omega, by omega⟩, by omega⟩
  · next notInfinite notZero =>
    injection h with _ mantissa exponent
    have notAll : (@unpackExponent .binary64 b).toNat ≠ 2047 := by
      intro all
      exact notInfinite (BitVec.eq_of_toNat_eq all)
    have notNone : (@unpackExponent .binary64 b).toNat ≠ 0 := by
      intro none
      exact notZero (BitVec.eq_of_toNat_eq none)
    rw [bias] at exponent
    have bits := toNat_append_one (@unpackMantissa .binary64 b)
    rw [mantissa] at bits
    exact ⟨⟨by omega, by omega, by omega⟩, by omega⟩

/-- The content of a float is stored unchanged: `stored (content x) = content x`. -/
theorem stored_content (x : Float) : stored (content x) = content x :=
  congrArg (UnpackedFloat.unpack .binary64) (UnpackedFloat.pack_unpack_of_valid x.toModel.valid)

end OpCycle.Binary64
