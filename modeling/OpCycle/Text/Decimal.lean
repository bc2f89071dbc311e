import OpCycle.Text.Basic

/-! # Decimal notation of integers
Writing naturals and integers in decimal digits, and reading them back: the reader takes an optional
sign and one or more digits, and nothing else. -/

namespace OpCycle.Decimal

/-- The decimal digits of `n`, most significant first and without leading zeros. -/
def ofNat (n : Nat) : Text :=
  if n < 10 then [Byte.ofDigit n] else ofNat (n / 10) ++ [Byte.ofDigit (n % 10)]
termination_by n

/-- The decimal notation of an integer; only negative ones have a sign, `-`. -/
def ofInt : Int → Text
  | .ofNat n => ofNat n
  | .negSucc n => Byte.minus :: ofNat (n + 1)

/-- The least number of digits, from `places` on, that `n` can be written with. -/
def lengthFrom (n places : Nat) : Nat :=
  if n < Nat.pow 10 places then places else lengthFrom n (places + 1)
termination_by n - places
decreasing_by
  have : places < Nat.pow 10 places := Nat.lt_pow_self (by decide)
  omega

/-- The number of significant digits of `n`, none for zero. A power of two is a little below its share of a digit, so
the search starts below the answer, and close to it. -/
def length (n : Nat) : Nat := lengthFrom n (n.log2 * 301029 / 1000000)

/-- The natural that `digits` denote, `[]` denoting zero. -/
def natOfDigits (digits : Text) : Nat :=
  digits.foldl (fun n b => 10 * n + Byte.digitValue b) 0

/-- The sign at the start of a number, `true` for a minus, and what follows it. -/
def splitSign : Text → Bool × Text
  | Byte.minus :: rest => (true, rest)
  | Byte.plus :: rest => (false, rest)
  | s => (false, s)

/-- Gives the magnitude `n` its sign: `-n` if `negative`. -/
def signed (negative : Bool) (n : Nat) : Int := if negative then -(n : Int) else n

/-- A number with its sign has the magnitude of the number: `(signed negative n).natAbs = n`. -/
theorem natAbs_signed (negative : Bool) (n : Nat) : (signed negative n).natAbs = n := by
  cases negative with
  | false => exact Int.natAbs_natCast n
  | true => exact (Int.natAbs_neg n).trans (Int.natAbs_natCast n)

/-- The sign of a product goes to its first factor: `signed negative (n * k) = signed negative n * k`. -/
theorem signed_mul (negative : Bool) (n k : Nat) : signed negative (n * k) = signed negative n * k := by
  cases negative with
  | false => exact Int.natCast_mul n k
  | true =>
    show -((n * k : Nat) : Int) = -(n : Int) * k
    rw [Int.natCast_mul, Int.neg_mul]

/-- A sign makes no number larger: `signed negative n ≤ n`. -/
theorem signed_le (negative : Bool) (n : Nat) : signed negative n ≤ n := by
  cases negative with
  | false => exact Int.le_refl _
  | true =>
    show -(n : Int) ≤ n
    omega

/-- Reads an optional sign and one or more digits, which are all of `s`. -/
def toInt? (s : Text) : Option Int :=
  let (negative, digits) := splitSign s
  if digits.isEmpty || !digits.all Byte.isDigit then none else some (signed negative (natOfDigits digits))

/-- The 64-bit integer with the value `n`, if there is one. -/
def int64? (n : Int) : Option Int64 :=
  if Int64.minValue.toInt ≤ n ∧ n ≤ Int64.maxValue.toInt then some (Int64.ofInt n) else none

/-- The 32-bit integer with the value `n`, if there is one. -/
def int32? (n : Int) : Option Int32 :=
  if Int32.minValue.toInt ≤ n ∧ n ≤ Int32.maxValue.toInt then some (Int32.ofInt n) else none

/-- Reads `s` as a 64-bit integer that may have white space around it. -/
def readInt64? (s : Text) : Option Int64 := (toInt? (Text.trim s)).bind int64?

/-- The decimal notation of `n`. -/
def ofInt64 (n : Int64) : Text := ofInt n.toInt

end OpCycle.Decimal
