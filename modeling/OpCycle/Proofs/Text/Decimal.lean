import OpCycle.Proofs.Text.Numeral
import OpCycle.Text.Decimal

/-! # Written integers
The decimal notation of a natural is made of digits, has no leading zeros, and denotes the natural again. -/

namespace OpCycle.Decimal

/-- The number of a digit: `(Byte.ofDigit d).toNat = 48 + d`. -/
theorem toNat_ofDigit {d : Nat} (h : d < 10) : (Byte.ofDigit d).toNat = 48 + d := by
  rw [Byte.ofDigit, UInt8.toNat_ofNat']
  exact Nat.mod_eq_of_lt (by omega)

/-- The digit of a number below ten is a digit: `Byte.isDigit (Byte.ofDigit d)`. -/
theorem isDigit_ofDigit {d : Nat} (h : d < 10) : Byte.isDigit (Byte.ofDigit d) = true := by
  rw [Byte.isDigit_iff, toNat_ofDigit h]
  omega

/-- The value of the digit of a number below ten is the number: `Byte.digitValue (Byte.ofDigit d) = d`. -/
theorem digitValue_ofDigit {d : Nat} (h : d < 10) : Byte.digitValue (Byte.ofDigit d) = d := by
  rw [Byte.digitValue, toNat_ofDigit h]
  omega

/-- A digit behind others counts once, and the others ten times:
`natOfDigits (digits ++ [b]) = 10 * natOfDigits digits + Byte.digitValue b`. -/
theorem natOfDigits_concat (digits : Text) (b : UInt8) :
    natOfDigits (digits ++ [b]) = 10 * natOfDigits digits + Byte.digitValue b := by
  rw [natOfDigits, List.foldl_append]
  rfl

/-- A natural is written with digits: `Digits (ofNat n)`. -/
theorem digits_ofNat (n : Nat) : Digits (ofNat n) := by
  fun_induction ofNat n with
  | case1 n small =>
    refine ⟨List.cons_ne_nil _ _, fun b mem => ?_⟩
    rw [List.mem_singleton.1 mem]
    exact isDigit_ofDigit small
  | case2 n large ih =>
    refine ⟨List.append_ne_nil_of_left_ne_nil ih.nonempty _, fun b mem => ?_⟩
    rcases List.mem_append.1 mem with mem | mem
    · exact ih.all b mem
    · rw [List.mem_singleton.1 mem]
      exact isDigit_ofDigit (Nat.mod_lt n (by decide))

/-- The digits of a natural denote it: `natOfDigits (ofNat n) = n`. -/
@[simp] theorem natOfDigits_ofNat (n : Nat) : natOfDigits (ofNat n) = n := by
  fun_induction ofNat n with
  | case1 n small =>
    show 10 * 0 + Byte.digitValue (Byte.ofDigit n) = n
    rw [digitValue_ofDigit small]
    omega
  | case2 n large ih =>
    rw [natOfDigits_concat, ih, digitValue_ofDigit (Nat.mod_lt n (by decide))]
    omega

/-- Only zero is written with a zero in front: `(ofNat n).head? ≠ some Byte.zero`. -/
theorem head?_ofNat_ne {n : Nat} (pos : 0 < n) : (ofNat n).head? ≠ some Byte.zero := by
  fun_induction ofNat n with
  | case1 n small =>
    intro head
    have zero : (Byte.ofDigit n).toNat = 48 := congrArg UInt8.toNat (Option.some.inj head)
    rw [toNat_ofDigit small] at zero
    omega
  | case2 n large ih =>
    obtain ⟨b, rest, first⟩ := List.exists_cons_of_ne_nil (digits_ofNat (n / 10)).nonempty
    rw [first] at ih ⊢
    exact ih (by omega)

/-- A natural is written without leading zeros:
`((ofNat n).head? == some Byte.zero && (ofNat n).length != 1) = false`. -/
theorem no_leading_zero (n : Nat) :
    ((ofNat n).head? == some Byte.zero && (ofNat n).length != 1) = false := by
  rcases Nat.eq_zero_or_pos n with rfl | pos
  · rw [ofNat]
    rfl
  · rw [beq_eq_false_iff_ne.2 (head?_ofNat_ne pos)]
    rfl

end OpCycle.Decimal
