import OpCycle.Text.Basic

/-! # Classes of bytes
The classes of bytes as conditions on their numbers, so that how classes lie to each other is arithmetic. -/

namespace OpCycle.Byte

variable {b c : UInt8}

/-- Bytes are equal if their numbers are: `(b == c) ↔ b.toNat = c.toNat`. -/
theorem beq_iff_toNat : (b == c) = true ↔ b.toNat = c.toNat := by
  rw [beq_iff_eq, UInt8.toNat_inj]

/-- White space is the space and the bytes from 9 to 13: `isBlank b ↔ b.toNat = 32 ∨ 9 ≤ b.toNat ∧ b.toNat ≤ 13`. -/
theorem isBlank_iff : isBlank b = true ↔ b.toNat = 32 ∨ 9 ≤ b.toNat ∧ b.toNat ≤ 13 := by
  rw [isBlank, Bool.or_eq_true, Bool.and_eq_true, beq_iff_toNat, decide_eq_true_iff, decide_eq_true_iff]
  exact Iff.rfl

/-- Digits are the bytes from 48 to 57: `isDigit b ↔ 48 ≤ b.toNat ∧ b.toNat ≤ 57`. -/
theorem isDigit_iff : isDigit b = true ↔ 48 ≤ b.toNat ∧ b.toNat ≤ 57 := by
  rw [isDigit, Bool.and_eq_true, decide_eq_true_iff, decide_eq_true_iff]
  exact Iff.rfl

/-- Upper-case letters are the bytes from 65 to 90: `isUpper b ↔ 65 ≤ b.toNat ∧ b.toNat ≤ 90`. -/
theorem isUpper_iff : isUpper b = true ↔ 65 ≤ b.toNat ∧ b.toNat ≤ 90 := by
  rw [isUpper, Bool.and_eq_true, decide_eq_true_iff, decide_eq_true_iff]
  exact Iff.rfl

/-- Lower-case letters are the bytes from 97 to 122: `isLower b ↔ 97 ≤ b.toNat ∧ b.toNat ≤ 122`. -/
theorem isLower_iff : isLower b = true ↔ 97 ≤ b.toNat ∧ b.toNat ≤ 122 := by
  rw [isLower, Bool.and_eq_true, decide_eq_true_iff, decide_eq_true_iff]
  exact Iff.rfl

/-- Letters are the bytes of either case:
`isLetter b ↔ (65 ≤ b.toNat ∧ b.toNat ≤ 90) ∨ 97 ≤ b.toNat ∧ b.toNat ≤ 122`. -/
theorem isLetter_iff :
    isLetter b = true ↔ (65 ≤ b.toNat ∧ b.toNat ≤ 90) ∨ 97 ≤ b.toNat ∧ b.toNat ≤ 122 := by
  rw [isLetter, Bool.or_eq_true, isUpper_iff, isLower_iff]

/-- Words are made of letters, digits and the underscore: `isWord b ↔ isLetter b ∨ isDigit b ∨ b.toNat = 95`. -/
theorem isWord_iff :
    isWord b = true ↔ isLetter b = true ∨ isDigit b = true ∨ b.toNat = 95 := by
  rw [isWord, Bool.or_eq_true, Bool.or_eq_true, or_assoc, beq_iff_toNat]
  exact Iff.rfl

/-- The number of a byte in lower case:
`(lower b).toNat = if 65 ≤ b.toNat ∧ b.toNat ≤ 90 then b.toNat + 32 else b.toNat`. -/
theorem toNat_lower (b : UInt8) :
    (lower b).toNat = if 65 ≤ b.toNat ∧ b.toNat ≤ 90 then b.toNat + 32 else b.toNat := by
  by_cases upper : isUpper b = true
  · have range := isUpper_iff.1 upper
    rw [lower, if_pos upper, if_pos range, UInt8.toNat_add]
    show (b.toNat + 32) % 256 = b.toNat + 32
    omega
  · rw [lower, if_neg upper, if_neg (mt isUpper_iff.2 upper)]

/-- The bytes with a given lower-case letter are that letter of either case:
`lower b = c ↔ b.toNat = c.toNat ∨ b.toNat + 32 = c.toNat`. -/
theorem lower_eq_iff (h : isLower c = true) :
    lower b = c ↔ b.toNat = c.toNat ∨ b.toNat + 32 = c.toNat := by
  have range := isLower_iff.1 h
  rw [← UInt8.toNat_inj, toNat_lower]
  split <;> omega

/-- What is a lower-case letter in lower case is a letter: `isLetter b`. -/
theorem isLetter_of_isLower_lower (h : isLower (lower b) = true) : isLetter b = true := by
  rw [isLower_iff, toNat_lower] at h
  rw [isLetter_iff]
  split at h <;> omega

/-- White space is no letter, no digit and no underscore: `isBlank b = false`. -/
theorem isBlank_of_isWord (h : isWord b = true) : isBlank b = false := by
  rw [isWord_iff, isLetter_iff, isDigit_iff] at h
  rw [← Bool.not_eq_true, isBlank_iff]
  omega

end OpCycle.Byte
