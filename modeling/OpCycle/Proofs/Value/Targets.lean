import OpCycle.Proofs.Value.Integers

/-! # Integer targets
What converts to the integer types that a caller can ask for. All of them go through the conversion to 64-bit
integers, and the one to 32-bit integers narrows its result. The cast of a float to a 64-bit integer is defined where
the integer part of the float is one; the check in front of the cast lets one float more pass.

* `Binary64.cast?`: the casts that are defined.
* `integer_conversions`: what converts to each target. -/

namespace OpCycle

namespace Decimal

/-- An integer in range is the value of its 32-bit integer: `int32? i = some n ↔ n.toInt = i`. -/
theorem int32?_eq_some_iff {i : Int} {n : Int32} : int32? i = some n ↔ n.toInt = i := by
  constructor
  · intro h
    unfold int32? at h
    split at h
    · next range =>
      cases h
      rw [← Int32.ofIntLE_eq_ofInt range.1 range.2, Int32.toInt_ofIntLE]
    · cases h
  · rintro rfl
    rw [int32?, if_pos ⟨n.minValue_le_toInt, n.toInt_le⟩, Int32.ofInt_toInt]

end Decimal

namespace Binary64

/-- The integer part of `q`, which drops what stands behind the point. -/
def integerPart (q : ℚ) : Int := q.num.tdiv q.den

/-- The integer part of an integer is the integer: `integerPart (i : ℚ) = i`. -/
theorem integerPart_intCast (i : Int) : integerPart (i : ℚ) = i := by
  rw [integerPart, Rat.num_intCast, Rat.den_intCast]
  exact Int.tdiv_one i

/-- The cast of `x` to a 64-bit integer, where it is defined: the float is finite and its integer part is in range. -/
def cast? (x : Float) : Option Int64 := (rational? x).bind fun q => Decimal.int64? (integerPart q)

/-- A float that denotes an integer is cast to it, if it is in range: `cast? x = Decimal.int64? i`. -/
theorem cast?_of_toInt? {x : Float} {i : Int} (h : toInt? x = some i) : cast? x = Decimal.int64? i := by
  rw [cast?, toInt?_eq_some_iff.1 h, Option.bind_some, integerPart_intCast]

end Binary64

namespace Value

variable {v : Value}

/-- A value denotes one integer only: `i = j`. -/
theorem Denotes.unique {i j : Int} (first : v.Denotes i) (second : v.Denotes j) : i = j := by
  cases v with
  | int n => exact (denotes_int_iff.1 first).symm.trans (denotes_int_iff.1 second)
  | float x => exact Option.some.inj ((denotes_float_iff.1 first).symm.trans (denotes_float_iff.1 second))
  | text s => exact Option.some.inj ((denotes_text_iff.1 first).symm.trans (denotes_text_iff.1 second))
  | null | bool | list | map => cases first

/-- The float `2 ^ 63` denotes itself. -/
theorem IsTooLarge.denotes (large : v.IsTooLarge) : v.Denotes (2 ^ 63) := by
  obtain ⟨x, rfl, same⟩ := large
  exact .float same

/-- The float `2 ^ 63` converts to the least 64-bit integer, and to no other. -/
theorem IsTooLarge.converts_iff (large : v.IsTooLarge) {n : Int64} : v.Converts n ↔ n = Int64.minValue := by
  constructor
  · rintro (denotes | ⟨-, least⟩)
    · have greatest := n.toInt_lt
      have same := denotes.unique large.denotes
      omega
    · exact least
  · exact fun least => .inr ⟨large, least⟩

/-- A value converts to the 32-bit integer that it denotes: what is converted by mistake is out of the narrower range
(`v.toInt32? = some n ↔ v.Denotes n.toInt`). -/
theorem toInt32?_eq_some_iff {n : Int32} : v.toInt32? = some n ↔ v.Denotes n.toInt := by
  rw [toInt32?, Option.bind_eq_some_iff]
  constructor
  · rintro ⟨m, converted, range⟩
    rw [Decimal.int32?_eq_some_iff.1 range]
    rcases toInt64?_eq_some_iff.1 converted with denotes | ⟨-, rfl⟩
    · exact denotes
    · cases range
  · intro denotes
    have wide : n.toInt64.toInt = n.toInt := Int32.toInt_toInt64 n
    exact ⟨n.toInt64, toInt64?_eq_some_iff.2 (.inl (wide ▸ denotes)), Decimal.int32?_eq_some_iff.2 wide.symm⟩

/-- A float other than `2 ^ 63` that converts is one of which the cast is defined, and is converted to what it is
cast to. -/
theorem cast?_of_toInt64? {x : Float} (fine : ¬ (Value.float x).IsTooLarge) {n : Int64}
    (converted : (Value.float x).toInt64? = some n) : Binary64.cast? x = some n := by
  have denotes := (converts_iff fine).1 (toInt64?_eq_some_iff.1 converted)
  rw [Binary64.cast?_of_toInt? (denotes_float_iff.1 denotes)]
  exact Decimal.int64?_eq_some_iff.2 rfl

/-- The cast of `2 ^ 63` is not defined. -/
theorem IsTooLarge.cast? {x : Float} (large : (Value.float x).IsTooLarge) : Binary64.cast? x = none := by
  rw [Binary64.cast?_of_toInt? (isTooLarge_float_iff.1 large)]
  rfl

/-- **Conversion to integers.** Every value but the float `2 ^ 63` converts to the integer that it denotes, for each
of the three integer types if that is in its range, and to nothing else; the cast of a float is made only where it is
defined. The float `2 ^ 63` denotes no 64-bit integer and its cast is not defined, but it converts to the least 64-bit
integer; it does not convert to a 32-bit integer. -/
theorem integer_conversions (v : Value) :
    (∀ n : Int32, tryConvert .int32 v = .ok (some n) ↔ v.Denotes n.toInt) ∧
    (¬ v.IsTooLarge →
      (∀ n : Int64, tryConvert .int64 v = .ok (some n) ↔ v.Denotes n.toInt) ∧
      (∀ n : Int64, tryConvert .wide v = .ok (some n) ↔ v.Denotes n.toInt) ∧
      ∀ x n, v = .float x → tryConvert .wide v = .ok (some n) → Binary64.cast? x = some n) ∧
    (v.IsTooLarge →
      (¬ ∃ n : Int64, v.Denotes n.toInt) ∧
      tryConvert .int64 v = .ok (some Int64.minValue) ∧ tryConvert .wide v = .ok (some Int64.minValue) ∧
      ∀ x, v = .float x → Binary64.cast? x = none) := by
  refine ⟨fun n => Outcome.ok_inj.trans toInt32?_eq_some_iff, fun fine => ?_, fun large => ?_⟩
  · have converts (n : Int64) : (.ok v.toInt64? : Except ValueFault _) = .ok (some n) ↔ v.Denotes n.toInt :=
      Outcome.ok_inj.trans (toInt64?_eq_some_iff.trans (converts_iff fine))
    refine ⟨converts, converts, ?_⟩
    rintro x n rfl converted
    exact cast?_of_toInt64? fine (Except.ok.inj converted)
  · have least : v.toInt64? = some Int64.minValue := toInt64?_eq_some_iff.2 (large.converts_iff.2 rfl)
    refine ⟨?_, congrArg Except.ok least, congrArg Except.ok least, ?_⟩
    · rintro ⟨n, denotes⟩
      have greatest := n.toInt_lt
      have same := denotes.unique large.denotes
      omega
    · rintro x rfl
      exact large.cast?

/-- The least integer is met by a float, an integer with white space and zeros around it by a text, and `2 ^ 31` and
`2 ^ 63` are out of range, the second of which converts all the same. -/
theorem integer_conversions_sample :
    tryConvert .wide (.float (Float.ofBits 0xc3e0000000000000)) = .ok (some Int64.minValue) ∧
    tryConvert .int64 (.text " +007\n") = .ok (some 7) ∧
    tryConvert .int32 (.float 2147483648) = .ok none ∧
    tryConvert .wide (.float (Float.ofBits 0x43e0000000000000)) = .ok (some Int64.minValue) := by
  have least : Binary64.toInt? (Float.ofBits 0xc3e0000000000000) = some Int64.minValue.toInt := by decide +kernel
  have wide : Binary64.toInt? 2147483648 = some (2 ^ 31) := by decide +kernel
  have large : Binary64.toInt? (Float.ofBits 0x43e0000000000000) = some (2 ^ 63) := by decide +kernel
  refine ⟨?_, ?_, ?_, ?_⟩
  · have fine : ¬ (Value.float (Float.ofBits 0xc3e0000000000000)).IsTooLarge := by
      rw [isTooLarge_float_iff, least]
      decide
    exact (((integer_conversions _).2.1 fine).2.1 _).2 (denotes_float_iff.2 least)
  · have fine : ¬ (Value.text " +007\n").IsTooLarge := not_isTooLarge (by rintro x ⟨⟩)
    exact (((integer_conversions _).2.1 fine).1 7).2 (denotes_text_iff.2 rfl)
  · refine congrArg Except.ok (Option.eq_none_iff_forall_ne_some.2 fun n converted => ?_)
    have same := ((integer_conversions _).1 n).1 (congrArg Except.ok converted)
    have greatest := n.toInt_lt
    rw [denotes_float_iff, wide, Option.some_inj] at same
    omega
  · exact ((integer_conversions _).2.2 (isTooLarge_float_iff.2 large)).2.2.1

/-- The greatest 64-bit integer is rounded up to the float `2 ^ 63`, which denotes none, and this float converts. -/
theorem too_large_float_converts :
    Binary64.toInt? (Binary64.ofInt64 Int64.maxValue) = some (2 ^ 63) ∧
    (¬ ∃ n : Int64, (Value.float (Binary64.ofInt64 Int64.maxValue)).Denotes n.toInt) ∧
    tryConvert .wide (.float (Binary64.ofInt64 Int64.maxValue)) = .ok (some Int64.minValue) ∧
    Binary64.cast? (Binary64.ofInt64 Int64.maxValue) = none := by
  have rounded : Binary64.toInt? (Binary64.ofInt64 Int64.maxValue) = some (2 ^ 63) := by decide +kernel
  have large : (Value.float (Binary64.ofInt64 Int64.maxValue)).IsTooLarge := isTooLarge_float_iff.2 rounded
  refine ⟨rounded, ?_, congrArg Except.ok (toInt64?_eq_some_iff.2 (large.converts_iff.2 rfl)), large.cast?⟩
  rintro ⟨n, denotes⟩
  have greatest := n.toInt_lt
  rw [denotes_float_iff, rounded, Option.some_inj] at denotes
  omega

end Value

end OpCycle
