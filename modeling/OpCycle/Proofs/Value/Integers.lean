import Mathlib.Algebra.Order.Field.Rat
import Mathlib.Data.Rat.Cast.CharZero
import OpCycle.Proofs.Text.Numeral
import OpCycle.Proofs.Value.Texts

/-! # Integers as values
Which values denote integers, and what they convert to. A float denotes the number that its parts stand for,
and a text the number that it is the decimal notation of. What converts is the 64-bit integer that a value
denotes, and one float more: the range is checked on floats, which lets `2 ^ 63` pass.

* `Denotes`, `Converts`: which values denote integers, and which convert to them.
* `toInt64?_eq_some_iff`: the conversion gives what a value converts to. -/

namespace OpCycle

/-! ## The integer that a float stands for -/

namespace Binary64

/-- The number that `x` stands for, if it is finite. -/
def rational? (x : Float) : Option ℚ :=
  match parts x with
  | .finite negative mantissa exponent => some (Decimal.signed negative mantissa * 2 ^ exponent)
  | _ => none

/-- A number scaled down by a power of two is an integer exactly if the power times the integer is the number:
`(i : ℚ) * 2 ^ (-(k : Int)) = n ↔ i = n * 2 ^ k`. -/
theorem scaledDown_eq_iff {i n : Int} {k : Nat} : (i : ℚ) * 2 ^ (-(k : Int)) = n ↔ i = n * 2 ^ k := by
  have nonzero : (2 : ℚ) ^ k ≠ 0 := pow_ne_zero k two_ne_zero
  rw [zpow_neg, zpow_natCast, mul_inv_eq_iff_eq_mul₀ nonzero]
  exact_mod_cast Iff.rfl

/-- A float denotes an integer exactly if it stands for it: `toInt? x = some n ↔ rational? x = some (n : ℚ)`. -/
theorem toInt?_eq_some_iff {x : Float} {n : Int} : toInt? x = some n ↔ rational? x = some (n : ℚ) := by
  unfold toInt? rational?
  cases parts x with
  | nan =>
    constructor
    · intro h
      cases h
    · intro h
      cases h
  | infinite negative =>
    constructor
    · intro h
      cases h
    · intro h
      cases h
  | finite negative mantissa exponent =>
    dsimp only
    rw [Option.some_inj]
    by_cases whole : 0 ≤ exponent
    · obtain ⟨k, rfl⟩ := Int.eq_ofNat_of_zero_le whole
      rw [if_pos whole, Option.some_inj, Int.natAbs_natCast, Decimal.signed_mul, zpow_natCast]
      exact_mod_cast Iff.rfl
    · obtain ⟨k, rfl⟩ := Int.exists_eq_neg_ofNat (Int.le_of_lt (Int.not_le.1 whole))
      rw [if_neg whole, Int.natAbs_neg, Int.natAbs_natCast, scaledDown_eq_iff]
      have cast : ((Nat.pow 2 k : Nat) : Int) = 2 ^ k := Int.natCast_pow 2 k
      split
      · next divides =>
        obtain ⟨q, rfl⟩ := Nat.dvd_of_mod_eq_zero divides
        have pos : 0 < Nat.pow 2 k := Nat.two_pow_pos k
        have nonzero : (2 : Int) ^ k ≠ 0 := pow_ne_zero k two_ne_zero
        rw [Nat.mul_div_cancel_left q pos, Option.some_inj, Nat.mul_comm, Decimal.signed_mul, cast,
          mul_left_inj' nonzero]
      · -- With a remainder no integer fits: multiplied back, it would be divisible by `2 ^ k`.
        next odd =>
        constructor
        · intro h
          cases h
        · intro same
          have magnitude := congrArg Int.natAbs same
          rw [Decimal.natAbs_signed, ← cast, Int.natAbs_mul, Int.natAbs_natCast] at magnitude
          exact absurd (magnitude ▸ Nat.mul_mod_left n.natAbs (Nat.pow 2 k)) odd

end Binary64

/-! ## The integer that a value denotes -/

namespace Value

/-- The value denotes the integer: an integer denotes itself, a float the integer that it stands for, and a text
the integer whose decimal notation it is, up to a plus, leading zeros and white space around it. -/
inductive Denotes : Value → Int → Prop
  /-- An integer. -/
  | int (n : Int64) : Denotes (.int n) n.toInt
  /-- A float that stands for an integer. -/
  | float {x : Float} {i : Int} : Binary64.rational? x = some (i : ℚ) → Denotes (.float x) i
  /-- A sign and digits. -/
  | text {s sign digits : Text} {negative : Bool} : Decimal.Sign sign negative → Decimal.Digits digits →
      Text.trim s = sign ++ digits →
      Denotes (.text s) (Decimal.signed negative (Decimal.natOfDigits digits))

/-- The value is the float `2 ^ 63`, which is no 64-bit integer. -/
def IsTooLarge (v : Value) : Prop := ∃ x, v = .float x ∧ Binary64.rational? x = some (2 ^ 63)

/-- The value `v` converts to `n`: it `Denotes` the integer, or it is the float that passes the check of the range by
mistake and wraps around. -/
def Converts (v : Value) (n : Int64) : Prop := v.Denotes n.toInt ∨ v.IsTooLarge ∧ n = Int64.minValue

/-- An integer denotes itself: `Denotes (.int n) i ↔ n.toInt = i`. -/
theorem denotes_int_iff {n : Int64} {i : Int} : Denotes (.int n) i ↔ n.toInt = i := by
  constructor
  · rintro ⟨⟩
    rfl
  · rintro rfl
    exact .int n

/-- A float denotes the integer that `Binary64.toInt?` gives. -/
theorem denotes_float_iff {x : Float} {i : Int} : Denotes (.float x) i ↔ Binary64.toInt? x = some i := by
  rw [Binary64.toInt?_eq_some_iff]
  constructor
  · rintro ⟨⟩
    assumption
  · exact .float

/-- A text denotes the integer that it spells between white space:
`Denotes (.text s) i ↔ Decimal.toInt? (Text.trim s) = some i`. -/
theorem denotes_text_iff {s : Text} {i : Int} : Denotes (.text s) i ↔ Decimal.toInt? (Text.trim s) = some i := by
  rw [Decimal.toInt?_eq_some_iff]
  constructor
  · rintro ⟨⟩
    next isSign isDigits trimmed => exact ⟨_, _, _, isSign, isDigits, trimmed, rfl⟩
  · rintro ⟨sign, digits, negative, isSign, isDigits, trimmed, rfl⟩
    exact .text isSign isDigits trimmed

/-- A float is cast to the integer that it denotes, and `2 ^ 63` to the least one. -/
theorem integralFloat?_eq_some_iff {x : Float} {n : Int64} : integralFloat? x = some n ↔
    Binary64.toInt? x = some n.toInt ∨ Binary64.toInt? x = some (2 ^ 63) ∧ n = Int64.minValue := by
  unfold integralFloat?
  cases Binary64.toInt? x with
  | none =>
    constructor
    · intro h
      cases h
    · rintro (h | ⟨h, -⟩) <;> cases h
  | some i =>
    dsimp only
    rw [Option.some_inj, Option.some_inj]
    by_cases large : i = 2 ^ 63
    · -- The one integer that passes the check and is out of range.
      have greatest := n.toInt_lt
      subst large
      rw [if_pos (by decide), Option.some_inj]
      constructor
      · rintro rfl
        exact .inr ⟨rfl, rfl⟩
      · rintro (same | ⟨-, rfl⟩)
        · omega
        · rfl
    · have range : Int64.minValue.toInt ≤ i ∧ i ≤ Int64.maxValue.toInt + 1 ↔
          Int64.minValue.toInt ≤ i ∧ i ≤ Int64.maxValue.toInt := by
        have greatest : Int64.maxValue.toInt + 1 = 2 ^ 63 := rfl
        omega
      rw [if_congr range rfl rfl]
      show Decimal.int64? i = some n ↔ _
      rw [Decimal.int64?_eq_some_iff, eq_comm]
      constructor
      · exact .inl
      · rintro (same | ⟨same, -⟩)
        · exact same
        · exact absurd same large

/-- Only floats are too large: `¬ v.IsTooLarge`. -/
theorem not_isTooLarge {v : Value} (other : ∀ x, v ≠ .float x) : ¬ v.IsTooLarge := by
  rintro ⟨x, same, -⟩
  exact other x same

/-- A float is too large if it denotes `2 ^ 63`. -/
theorem isTooLarge_float_iff {x : Float} : IsTooLarge (.float x) ↔ Binary64.toInt? x = some (2 ^ 63) := by
  rw [Binary64.toInt?_eq_some_iff]
  constructor
  · rintro ⟨_, ⟨⟩, large⟩
    exact large
  · intro large
    exact ⟨x, rfl, large⟩

/-- A value other than the float `2 ^ 63` converts to the integer that it denotes. -/
theorem converts_iff {v : Value} (fine : ¬ v.IsTooLarge) {n : Int64} : v.Converts n ↔ v.Denotes n.toInt :=
  or_iff_left fun h => fine h.1

/-- The conversion to 64-bit integers is as it is described: `v.toInt64? = some n ↔ v.Converts n`. -/
theorem toInt64?_eq_some_iff {v : Value} {n : Int64} : v.toInt64? = some n ↔ v.Converts n := by
  -- Only a float can be too large, so elsewhere a value converts to what it denotes.
  cases v with
  | int m =>
    rw [converts_iff (not_isTooLarge (by rintro x ⟨⟩)), denotes_int_iff, Int64.toInt_inj]
    exact Option.some_inj
  | float x =>
    rw [Converts, denotes_float_iff, isTooLarge_float_iff]
    exact integralFloat?_eq_some_iff
  | text s =>
    rw [converts_iff (not_isTooLarge (by rintro x ⟨⟩)), denotes_text_iff]
    show Decimal.readInt64? s = some n ↔ _
    rw [Decimal.readInt64?, Option.bind_eq_some_iff]
    constructor
    · rintro ⟨i, read, range⟩
      rw [read, Decimal.int64?_eq_some_iff.1 range]
    · intro read
      exact ⟨n.toInt, read, Decimal.int64?_eq_some_iff.2 rfl⟩
  | null | bool | list | map =>
    rw [converts_iff (not_isTooLarge (by rintro x ⟨⟩))]
    constructor
    · intro h
      cases h
    · intro h
      cases h

/-- What converts to an integer is converted to it: `v.toInt64 = .ok n ↔ v.Converts n`. -/
theorem toInt64_eq_ok_iff {v : Value} {n : Int64} : v.toInt64 = .ok n ↔ v.Converts n :=
  toInt64_eq_ok_iff_toInt64?.trans toInt64?_eq_some_iff

end Value

end OpCycle
