import Mathlib.Data.Int.ModEq
import OpCycle.Basics.Library
import OpCycle.Proofs.Outcome
import OpCycle.Proofs.Value.Integers

/-! # Arithmetic on integers
Sums and products wrap around, the other functions are exact wherever their result fits, and no operation on the
integers of accepted arguments is undefined: no signed sum leaves the range, nothing is divided by zero, and the
one quotient that does not fit is taken as a product of words. Only the conversion of an argument has a slip, which
takes the float `2 ^ 63` for the least integer.

* `sum?`, `quotient?`, `remainder?`: signed operations, undefined where they overflow or divide by zero.
* `Evaluates`, `Computes`: a step, or a built-in function, is an expression over whatever converts to an integer.
* `computes_division` and its siblings, `integer_steps_exact`: every step is exact, or wraps around as it says. -/

namespace OpCycle.Basics

/-! ## Operations that can be undefined -/

/-- The signed sum `a + b`, undefined if it does not fit. -/
def sum? (a b : Int64) : Option Int64 := Decimal.int64? (a.toInt + b.toInt)

/-- The signed quotient `a / b` rounded toward zero, undefined for a zero divisor and if it does not fit. -/
def quotient? (a b : Int64) : Option Int64 := if b = 0 then none else Decimal.int64? (a.toInt.tdiv b.toInt)

/-- The remainder of the signed division `a / b`, undefined where `quotient?` is. -/
def remainder? (a b : Int64) : Option Int64 := (quotient? a b).bind fun _ => Decimal.int64? (a.toInt.tmod b.toInt)

/-- The sum of the words of `a` and `b`. -/
def sumOfWords (a b : Int64) : Int64 := (a.toUInt64 + b.toUInt64).toInt64

/-- The product of the words of `a` and `b`. -/
def productOfWords (a b : Int64) : Int64 := (a.toUInt64 * b.toUInt64).toInt64

/-- The remainder of `n` between zero and `modulus`, by `remainder?` and `sum?`. -/
def modulo? (modulus n : Int64) : Option Int64 := do
  let r ← remainder? n modulus
  if r < 0 then sum? r modulus else some r

/-- The quotient `n / divisor`, by a product of words for a divisor of minus one and by `quotient?` for all others. -/
def divide? (divisor n : Int64) : Option Int64 :=
  if divisor = -1 then some (productOfWords n (-1)) else quotient? n divisor

/-- The integer `n` brought between two bounds, undefined unless `low ≤ high`. -/
def clamp? (low high n : Int64) : Option Int64 := if high < low then none else some (clamp low high n)

/-- A sum of integers is taken on their words: `sumOfWords a b = a + b`. -/
theorem sumOfWords_eq (a b : Int64) : sumOfWords a b = a + b := by
  rw [sumOfWords, UInt64.toInt64_add, Int64.toInt64_toUInt64, Int64.toInt64_toUInt64]

/-- A product of integers is taken on their words: `productOfWords a b = a * b`. -/
theorem productOfWords_eq (a b : Int64) : productOfWords a b = a * b := by
  rw [productOfWords, UInt64.toInt64_mul, Int64.toInt64_toUInt64, Int64.toInt64_toUInt64]

/-- A quotient by a divisor other than zero and minus one is defined: `quotient? a b = some (a / b)`. -/
theorem quotient?_eq_some {a b : Int64} (nonzero : b ≠ 0) (notMinusOne : b ≠ -1) :
    quotient? a b = some (a / b) := by
  rw [quotient?, if_neg nonzero, Decimal.int64?_eq_some_iff]
  exact Int64.toInt_div_of_ne_right a b notMinusOne

/-- A remainder by a divisor other than zero and minus one is defined: `remainder? a b = some (a % b)`. -/
theorem remainder?_eq_some {a b : Int64} (nonzero : b ≠ 0) (notMinusOne : b ≠ -1) :
    remainder? a b = some (a % b) := by
  rw [remainder?, quotient?_eq_some nonzero notMinusOne, Option.bind_some, Decimal.int64?_eq_some_iff]
  exact Int64.toInt_mod a b

/-! ## What the functions compute -/

/-- The truncating remainder by a positive modulus is the remainder between zero and the modulus, or one modulus less:
`(0 ≤ a.tmod m ∧ a.tmod m = a % m) ∨ (a.tmod m < 0 ∧ a.tmod m + m = a % m)`. -/
theorem tmod_cases {a m : Int} (pos : 0 < m) :
    (0 ≤ a.tmod m ∧ a.tmod m = a % m) ∨ (a.tmod m < 0 ∧ a.tmod m + m = a % m) := by
  have nonneg := Int.emod_nonneg a (Int.ne_of_gt pos)
  have below := Int.emod_lt_of_pos a pos
  rw [Int.tmod_eq_emod]
  split <;> omega

/-- The sign of an integer is that of its value: `n < 0 ↔ n.toInt < 0`. -/
theorem neg_iff {n : Int64} : n < 0 ↔ n.toInt < 0 := Int64.lt_iff_toInt_lt

/-- A positive integer divides every other one without overflow, as it is neither zero nor minus one:
`n ≠ 0 ∧ n ≠ -1`. -/
theorem ne_of_pos {n : Int64} (pos : 0 < n.toInt) : n ≠ 0 ∧ n ≠ -1 := by
  constructor
  · rintro rfl
    exact absurd pos (by decide)
  · rintro rfl
    exact absurd pos (by decide)

/-- A negative remainder and the modulus have a sum between them:
`(n % modulus + modulus).toInt = n.toInt.tmod modulus.toInt + modulus.toInt`. -/
theorem toInt_mod_add {modulus n : Int64} (pos : 0 < modulus.toInt) (negative : n % modulus < 0) :
    (n % modulus + modulus).toInt = n.toInt.tmod modulus.toInt + modulus.toInt := by
  rw [neg_iff, Int64.toInt_mod] at negative
  have above := Int.lt_tmod_of_pos n.toInt pos
  have greatest := modulus.toInt_lt
  rw [Int64.toInt_add, Int64.toInt_mod]
  exact Int.bmod_eq_of_le (by omega) (by omega)

/-- The remainder is defined for a positive modulus: `modulo? modulus n = some (modulo modulus n)`. -/
theorem modulo?_eq_some {modulus : Int64} (pos : 0 < modulus.toInt) (n : Int64) :
    modulo? modulus n = some (modulo modulus n) := by
  obtain ⟨nonzero, notMinusOne⟩ := ne_of_pos pos
  rw [modulo?, remainder?_eq_some nonzero notMinusOne, Option.bind_eq_bind, Option.bind_some, modulo]
  split
  · next negative =>
    rw [sum?, Decimal.int64?_eq_some_iff, toInt_mod_add pos negative, Int64.toInt_mod]
  · rfl

/-- The remainder by a positive modulus is the one between zero and the modulus:
`(modulo modulus n).toInt = n.toInt % modulus.toInt`. -/
theorem toInt_modulo {modulus : Int64} (pos : 0 < modulus.toInt) (n : Int64) :
    (modulo modulus n).toInt = n.toInt % modulus.toInt := by
  have remainder := tmod_cases (a := n.toInt) pos
  unfold modulo
  dsimp only
  split
  · next negative =>
    rw [toInt_mod_add pos negative]
    rw [neg_iff, Int64.toInt_mod] at negative
    omega
  · next nonneg =>
    rw [neg_iff, Int64.toInt_mod] at nonneg
    rw [Int64.toInt_mod]
    omega

/-- The quotient is defined for a divisor other than zero: `divide? divisor n = some (divide divisor n)`. -/
theorem divide?_eq_some {divisor : Int64} (nonzero : divisor ≠ 0) (n : Int64) :
    divide? divisor n = some (divide divisor n) := by
  unfold divide? divide
  split
  · rw [productOfWords_eq]
  · next notMinusOne => exact quotient?_eq_some nonzero notMinusOne

/-- The quotient is rounded toward zero, and the one that does not fit wraps around: `(divide divisor n).toInt = if n
= Int64.minValue ∧ divisor = -1 then Int64.minValue.toInt else n.toInt.tdiv divisor.toInt`. -/
theorem toInt_divide {divisor : Int64} (n : Int64) :
    (divide divisor n).toInt =
      if n = Int64.minValue ∧ divisor = -1 then Int64.minValue.toInt else n.toInt.tdiv divisor.toInt := by
  unfold divide
  by_cases minusOne : divisor = -1
  · subst minusOne
    have minusOne : (-1 : Int64).toInt = -1 := by decide
    -- Negation wraps for the least integer and for no other.
    have greatest := n.toInt_lt
    rw [if_pos rfl, Int64.toInt_mul, minusOne, Int.mul_neg_one, Int.tdiv_neg, Int.tdiv_one]
    split
    · next least =>
      rw [least.1]
      decide
    · next other =>
      have above : -(2 ^ 63) < n.toInt := by
        have different : n.toInt ≠ Int64.minValue.toInt := fun same => other ⟨Int64.toInt_inj.1 same, rfl⟩
        have least := n.minValue_le_toInt
        rw [Int64.toInt_minValue] at different least
        omega
      exact Int.bmod_eq_of_le (by omega) (by omega)
  · rw [if_neg minusOne, if_neg fun h => minusOne h.2, Int64.toInt_div_of_ne_right n divisor minusOne]

/-- The value is brought between the bounds: `(clamp low high n).toInt = min (max n.toInt low.toInt) high.toInt`. -/
theorem toInt_clamp {low high : Int64} (ordered : low.toInt ≤ high.toInt) (n : Int64) :
    (clamp low high n).toInt = min (max n.toInt low.toInt) high.toInt := by
  unfold clamp
  split
  · next below =>
    rw [Int64.lt_iff_toInt_lt] at below
    omega
  · next notBelow =>
    rw [Int64.lt_iff_toInt_lt] at notBelow
    split
    · next above =>
      rw [Int64.lt_iff_toInt_lt] at above
      omega
    · next notAbove =>
      rw [Int64.lt_iff_toInt_lt] at notAbove
      omega

/-! ## Accepted arguments -/

/-- An argument is an integer if it converts to one: `intArgument a = .ok n ↔ a.Converts n`. -/
theorem intArgument_eq_ok_iff {a : Value} {n : Int64} : intArgument a = .ok n ↔ a.Converts n :=
  Outcome.mapError_eq_ok.trans Value.toInt64_eq_ok_iff

/-- An argument that is refused where it breaks a rule is one that converts to an integer that keeps the rule:
`(do let m ← intArgument a if broken m then .error refusal else pure m) = .ok n ↔ a.Converts n ∧ ¬ broken n`. -/
theorem checkedArgument_eq_ok_iff {broken : Int64 → Prop} [DecidablePred broken] {refusal : Refusal} {a : Value}
    {n : Int64} : (do
      let m ← intArgument a
      if broken m then .error refusal else pure m) = .ok n ↔ a.Converts n ∧ ¬ broken n := by
  rw [Outcome.bind_eq_ok]
  constructor
  · rintro ⟨m, converts, checked⟩
    split at checked
    · cases checked
    · next kept =>
      cases checked
      exact ⟨intArgument_eq_ok_iff.1 converts, kept⟩
  · rintro ⟨converts, kept⟩
    exact ⟨n, intArgument_eq_ok_iff.2 converts, if_neg kept⟩

/-- A positive argument is one that converts to a positive integer:
`positiveArgument quantity a = .ok n ↔ a.Converts n ∧ 0 < n.toInt`. -/
theorem positiveArgument_eq_ok_iff {quantity : Text} {a : Value} {n : Int64} :
    positiveArgument quantity a = .ok n ↔ a.Converts n ∧ 0 < n.toInt := by
  rw [positiveArgument, checkedArgument_eq_ok_iff, Int64.le_iff_toInt_le, Int.not_le]
  exact Iff.rfl

/-- An argument `a` as a 64-bit integer other than zero. -/
def divisorArgument (a : Value) : Except Refusal Int64 := do
  let n ← intArgument a
  if n = 0 then .error (.rule "divisor must not be zero") else pure n

/-- A divisor is an argument that converts to an integer other than zero:
`divisorArgument a = .ok n ↔ a.Converts n ∧ n.toInt ≠ 0`. -/
theorem divisorArgument_eq_ok_iff {a : Value} {n : Int64} :
    divisorArgument a = .ok n ↔ a.Converts n ∧ n.toInt ≠ 0 := by
  rw [divisorArgument, checkedArgument_eq_ok_iff, ← Int64.toInt_inj]
  exact Iff.rfl

/-- Two arguments are bounds if they convert to integers in order:
`boundArguments a b = .ok (low, high) ↔ a.Converts low ∧ b.Converts high ∧ low.toInt ≤ high.toInt`. -/
theorem boundArguments_eq_ok_iff {a b : Value} {low high : Int64} :
    boundArguments a b = .ok (low, high) ↔
      a.Converts low ∧ b.Converts high ∧ low.toInt ≤ high.toInt := by
  rw [boundArguments, Outcome.bind_eq_ok]
  constructor
  · rintro ⟨l, lower, rest⟩
    obtain ⟨h, upper, checked⟩ := Outcome.bind_eq_ok.1 rest
    split at checked
    · cases checked
    · next ordered =>
      cases checked
      rw [Int64.lt_iff_toInt_lt] at ordered
      exact ⟨intArgument_eq_ok_iff.1 lower, intArgument_eq_ok_iff.1 upper, Int.not_lt.1 ordered⟩
  · rintro ⟨lower, upper, ordered⟩
    refine ⟨low, intArgument_eq_ok_iff.2 lower, ?_⟩
    refine Outcome.bind_eq_ok.2 ⟨high, intArgument_eq_ok_iff.2 upper, if_neg ?_⟩
    rw [Int64.lt_iff_toInt_lt]
    exact Int.not_lt.2 ordered

/-! ## Steps -/

/-- The `step` evaluates an expression over whatever `Converts` to an integer: `expression?` is defined there, and
what the step yields is its value and is what it `means`. -/
def Evaluates (expression? : Int64 → Option Int64) (means : Int → Int → Prop) (step : Step) : Prop :=
  ∀ v x, v.Converts x → ∃ y, expression? x = some y ∧ step v = .ok (.int y) ∧ means x.toInt y.toInt

/-- The function `name` takes `a` exactly if it converts to an integer that it `admits`, and the step that it makes of
it `Evaluates` an expression over the integer. -/
structure Computes (name : Text) (a : Value) (admits : Int → Prop) (expression? : Int64 → Int64 → Option Int64)
    (means : Int → Int → Int → Prop) : Prop where
  accepts : (∃ step, builtIn name [a] = .ok step) ↔ ∃ n, a.Converts n ∧ admits n.toInt
  evaluates : ∀ {step n}, builtIn name [a] = .ok step → a.Converts n →
    Evaluates (expression? n) (means n.toInt) step

/-- A step for integers evaluates what defines its function:
`Evaluates expression? means (onInt fun x => .int (f x))`. -/
theorem evaluates_onInt {f : Int64 → Int64} {expression? : Int64 → Option Int64} {means : Int → Int → Prop}
    (defined : ∀ x, expression? x = some (f x)) (sound : ∀ x, means x.toInt (f x).toInt) :
    Evaluates expression? means (onInt fun x => .int (f x)) := by
  intro v x converts
  refine ⟨f x, defined x, ?_, sound x⟩
  show v.toInt64.map _ = _
  rw [Value.toInt64_eq_ok_iff.2 converts]
  rfl

/-- A value converts to one integer at most: `n = m`. -/
theorem converts_unique {a : Value} {n m : Int64} (first : a.Converts n) (second : a.Converts m) : n = m := by
  have same := (Value.toInt64_eq_ok_iff.2 first).symm.trans (Value.toInt64_eq_ok_iff.2 second)
  exact Except.ok.inj same

section Makers

variable {name : Text} {a : Value} {admits : Int → Prop} {expression? : Int64 → Int64 → Option Int64}
  {means : Int → Int → Int → Prop}

/-- A function that checks its argument and makes a step for integers of it computes what defines its function on the
admitted integers: `Computes name a admits expression? means`. -/
theorem computes_of_check (check : Value → Except Refusal Int64) (f : Int64 → Int64 → Int64)
    (makes : builtIn name [a] = do
      let n ← check a
      pure (onInt fun x => .int (f n x)))
    (checks : ∀ n, check a = .ok n ↔ a.Converts n ∧ admits n.toInt)
    (defined : ∀ n : Int64, admits n.toInt → ∀ x, expression? n x = some (f n x))
    (sound : ∀ n : Int64, admits n.toInt → ∀ x : Int64, means n.toInt x.toInt (f n x).toInt) :
    Computes name a admits expression? means := by
  constructor
  case accepts =>
    constructor
    · rintro ⟨step, made⟩
      rw [makes, Outcome.bind_eq_ok] at made
      obtain ⟨n, checked, -⟩ := made
      exact ⟨n, (checks n).1 checked⟩
    · rintro ⟨n, accepted⟩
      exact ⟨_, makes.trans (Outcome.bind_eq_ok.2 ⟨n, (checks n).2 accepted, rfl⟩)⟩
  case evaluates =>
    intro step n made converts
    rw [makes, Outcome.bind_eq_ok] at made
    obtain ⟨m, checked, ⟨⟩⟩ := made
    obtain ⟨same, admitted⟩ := (checks m).1 checked
    cases converts_unique converts same
    exact evaluates_onInt (defined n admitted) (sound n admitted)

/-- A function that takes every integer as its argument computes what defines its function:
`Computes name a (fun _ => True) expression? means`. -/
theorem computes_of_intArgument (f : Int64 → Int64 → Int64)
    (makes : builtIn name [a] = do
      let n ← intArgument a
      pure (onInt fun x => .int (f n x)))
    (defined : ∀ n x, expression? n x = some (f n x))
    (sound : ∀ n x : Int64, means n.toInt x.toInt (f n x).toInt) :
    Computes name a (fun _ => True) expression? means := by
  refine computes_of_check intArgument f makes ?_ (fun n _ => defined n) fun n _ => sound n
  intro n
  rw [intArgument_eq_ok_iff, and_true]

end Makers

/-- Adding wraps around:
`Computes "Add" a (fun _ => True) (fun n x => some (sumOfWords x n)) fun n x y => y ≡ x + n [ZMOD 2 ^ 64]`. -/
theorem computes_addition (a : Value) :
    Computes "Add" a (fun _ => True) (fun n x => some (sumOfWords x n)) fun n x y => y ≡ x + n [ZMOD 2 ^ 64] := by
  refine computes_of_intArgument (fun n x => x + n) rfl ?defined ?sound
  case defined =>
    intro n x
    rw [sumOfWords_eq]
  case sound =>
    intro n x
    rw [Int64.toInt_add]
    exact Int.bmod_emod

/-- Multiplying wraps around:
`Computes "Mul" a (fun _ => True) (fun n x => some (productOfWords x n)) fun n x y => y ≡ x * n [ZMOD 2 ^ 64]`. -/
theorem computes_multiplication (a : Value) :
    Computes "Mul" a (fun _ => True) (fun n x => some (productOfWords x n))
      fun n x y => y ≡ x * n [ZMOD 2 ^ 64] := by
  refine computes_of_intArgument (fun n x => x * n) rfl ?defined ?sound
  case defined =>
    intro n x
    rw [productOfWords_eq]
  case sound =>
    intro n x
    rw [Int64.toInt_mul]
    exact Int.bmod_emod

/-- The remainder by a positive modulus is the one between zero and the modulus:
`Computes "Mod" a (1 ≤ ·) modulo? fun n x y => 0 ≤ y ∧ y < n ∧ y ≡ x [ZMOD n]`. -/
theorem computes_modulo (a : Value) :
    Computes "Mod" a (1 ≤ ·) modulo? fun n x y => 0 ≤ y ∧ y < n ∧ y ≡ x [ZMOD n] := by
  refine computes_of_check (positiveArgument "modulus") modulo rfl ?checks ?defined ?sound
  case checks =>
    intro n
    exact positiveArgument_eq_ok_iff
  case defined =>
    intro n positive
    exact modulo?_eq_some positive
  case sound =>
    intro n positive x
    rw [toInt_modulo positive]
    exact ⟨Int.emod_nonneg _ (Int.ne_of_gt positive), Int.emod_lt_of_pos _ positive, Int.mod_modEq _ _⟩

/-- The quotient by a divisor other than zero is rounded toward zero; the one that does not fit wraps around:
`Computes "Div" a (· ≠ 0) divide? fun n x y => y = if x = Int64.minValue.toInt ∧ n = -1 then Int64.minValue.toInt else
x.tdiv n`. -/
theorem computes_division (a : Value) :
    Computes "Div" a (· ≠ 0) divide? fun n x y =>
      y = if x = Int64.minValue.toInt ∧ n = -1 then Int64.minValue.toInt else x.tdiv n := by
  refine computes_of_check divisorArgument divide ?makes ?checks ?defined ?sound
  case makes =>
    -- The check of the divisor stands before the step in one sequence with it.
    show (intArgument a >>= fun divisor => if divisor = 0 then .error (.rule "divisor must not be zero")
      else pure (onInt fun x => .int (divide divisor x))) = _
    rw [divisorArgument, bind_assoc]
    congr 1
    funext divisor
    split
    · rfl
    · rfl
  case checks =>
    intro n
    exact divisorArgument_eq_ok_iff
  case defined =>
    intro n nonzero
    exact divide?_eq_some fun same => nonzero (congrArg Int64.toInt same)
  case sound =>
    intro n _ x
    rw [toInt_divide]
    refine if_congr (and_congr Int64.toInt_inj.symm ?_) rfl rfl
    exact Int64.toInt_inj.symm

/-- The arguments of `Clamp` are accepted exactly if they convert to bounds in order. -/
theorem clamp_accepts (a b : Value) : (∃ step, builtIn "Clamp" [a, b] = .ok step) ↔
    ∃ low high : Int64, a.Converts low ∧ b.Converts high ∧ low.toInt ≤ high.toInt := by
  constructor
  · rintro ⟨step, made⟩
    obtain ⟨⟨low, high⟩, bounds, -⟩ := Outcome.bind_eq_ok.1 made
    exact ⟨low, high, boundArguments_eq_ok_iff.1 bounds⟩
  · rintro ⟨low, high, bounds⟩
    exact ⟨_, Outcome.bind_eq_ok.2 ⟨(low, high), boundArguments_eq_ok_iff.2 bounds, rfl⟩⟩

/-- What is made of bounds brings integers between them:
`Evaluates (clamp? low high) (fun x y => y = min (max x low.toInt) high.toInt) step`. -/
theorem clamp_evaluates {a b : Value} {step : Step} {low high : Int64}
    (made : builtIn "Clamp" [a, b] = .ok step) (lower : a.Converts low) (upper : b.Converts high) :
    Evaluates (clamp? low high) (fun x y => y = min (max x low.toInt) high.toInt) step := by
  obtain ⟨⟨l, h⟩, bounds, ⟨⟩⟩ := Outcome.bind_eq_ok.1 made
  obtain ⟨lower', upper', ordered⟩ := boundArguments_eq_ok_iff.1 bounds
  cases converts_unique lower lower'
  cases converts_unique upper upper'
  refine evaluates_onInt (fun x => if_neg ?_) (toInt_clamp ordered)
  rw [Int64.lt_iff_toInt_lt]
  exact Int.not_lt.2 ordered

/-- The functions on integers compute what their names say: sums and products modulo `2 ^ 64`, the remainder
between zero and the modulus, the quotient rounded toward zero but for the one that wraps around, and the value
between two bounds. They accept the arguments for which that is defined, and evaluate it without an undefined
operation. An argument converts to the integer that it denotes, unless it is the float `2 ^ 63`. -/
theorem integer_steps_exact (a b : Value) :
    Computes "Add" a (fun _ => True) (fun n x => some (sumOfWords x n)) (fun n x y => y ≡ x + n [ZMOD 2 ^ 64]) ∧
    Computes "Mul" a (fun _ => True) (fun n x => some (productOfWords x n))
      (fun n x y => y ≡ x * n [ZMOD 2 ^ 64]) ∧
    Computes "Mod" a (1 ≤ ·) modulo? (fun n x y => 0 ≤ y ∧ y < n ∧ y ≡ x [ZMOD n]) ∧
    Computes "Div" a (· ≠ 0) divide? (fun n x y =>
      y = if x = Int64.minValue.toInt ∧ n = -1 then Int64.minValue.toInt else x.tdiv n) ∧
    ((∃ step, builtIn "Clamp" [a, b] = .ok step) ↔
      ∃ low high : Int64, a.Converts low ∧ b.Converts high ∧ low.toInt ≤ high.toInt) ∧
    (∀ {step} {low high : Int64}, builtIn "Clamp" [a, b] = .ok step → a.Converts low → b.Converts high →
      Evaluates (clamp? low high) (fun x y => y = min (max x low.toInt) high.toInt) step) ∧
    (¬ a.IsTooLarge → ∀ n : Int64, a.Converts n ↔ a.Denotes n.toInt) :=
  ⟨computes_addition a, computes_multiplication a, computes_modulo a, computes_division a, clamp_accepts a b,
    clamp_evaluates, fun fine _ => Value.converts_iff fine⟩

/-- The least integer divided by minus one, and seven brought between bounds of which one is a text. -/
theorem integer_steps_exact_sample :
    (∃ step, builtIn "Div" [.int (-1)] = .ok step ∧ step (.int Int64.minValue) = .ok (.int Int64.minValue)) ∧
    ∃ step, builtIn "Clamp" [.text "-5", .int 5] = .ok step ∧
      (∃ y : Int64, step (.int 7) = .ok (.int y) ∧ y.toInt = 5) ∧ (Value.text "-5").Denotes (-5) := by
  constructor
  · obtain ⟨-, -, -, division, -⟩ := integer_steps_exact (.int (-1)) .null
    have converts : (Value.int (-1)).Converts (-1) := .inl (.int _)
    obtain ⟨step, made⟩ := division.accepts.2 ⟨-1, converts, by decide⟩
    obtain ⟨y, -, yields, value⟩ := division.evaluates made converts (.int Int64.minValue) _ (.inl (.int _))
    rw [if_pos ⟨rfl, rfl⟩, Int64.toInt_inj] at value
    rw [value] at yields
    exact ⟨step, made, yields⟩
  · obtain ⟨-, -, -, -, accepts, evaluates, denotes⟩ := integer_steps_exact (.text "-5") (.int 5)
    have lower : (Value.text "-5").Converts (-5) := Value.toInt64?_eq_some_iff.1 (by decide +kernel)
    have upper : (Value.int 5).Converts 5 := .inl (.int _)
    obtain ⟨step, made⟩ := accepts.2 ⟨-5, 5, lower, upper, by decide⟩
    obtain ⟨y, -, yields, value⟩ := evaluates made lower upper (.int 7) _ (.inl (.int _))
    exact ⟨step, made, ⟨y, yields, value⟩, (denotes (Value.not_isTooLarge (by rintro x ⟨⟩)) (-5)).1 lower⟩

/-- The calls are a single one of `Clamp`, with the float `2 ^ 63` as the lower bound and zero as the upper one. -/
def isLargeClamp : List Spec.Call → Bool
  | [⟨name, [.float x, .int n]⟩] =>
    name = Text.ofString "Clamp" && n = 0 && Binary64.toInt? x = some (2 ^ 63)
  | _ => false

/-- The test finds calls of `Clamp` with the float `2 ^ 63` and zero as bounds. -/
theorem isLargeClamp_iff {calls : List Spec.Call} : isLargeClamp calls = true ↔
    ∃ x, calls = [⟨"Clamp", [.float x, .int 0]⟩] ∧ Binary64.toInt? x = some (2 ^ 63) := by
  constructor
  · intro large
    unfold isLargeClamp at large
    split at large
    · next name x n =>
      rw [Bool.and_eq_true, Bool.and_eq_true, decide_eq_true_iff, decide_eq_true_iff, decide_eq_true_iff] at large
      obtain ⟨⟨rfl, rfl⟩, denotes⟩ := large
      exact ⟨x, rfl, denotes⟩
    · cases large
  · rintro ⟨x, rfl, denotes⟩
    exact decide_eq_true denotes

/-- The float `2 ^ 63` is accepted as a lower bound below zero, although it denotes no 64-bit integer. -/
theorem large_float_accepted :
    (∃ chain, catalog.resolve "Clamp(9223372036854775808.0,0)" false = .ok chain ∧
      chain.apply 5 = .ok (.int 0)) ∧
    ∃ a, Spec.parse "Clamp(9223372036854775808.0,0)" = .ok [⟨"Clamp", [a, .int 0]⟩] ∧
      (∃ step, builtIn "Clamp" [a, .int 0] = .ok step) ∧ ¬ ∃ n : Int64, a.Denotes n.toInt := by
  constructor
  · obtain ⟨chain, resolved, yields⟩ := Outcome.exists_ok_of_test
      (x := catalog.resolve "Clamp(9223372036854775808.0,0)" false)
      (fun chain => (chain.apply 5).toOption.any (· == .int 0)) (by decide +kernel)
    obtain ⟨v, given, zero⟩ := Outcome.exists_ok_of_test _ yields
    exact ⟨chain, resolved, given.trans (congrArg Except.ok (Value.beq_int_iff.1 zero))⟩
  · obtain ⟨calls, parsed, large⟩ := Outcome.exists_ok_of_test
      (x := Spec.parse "Clamp(9223372036854775808.0,0)") isLargeClamp (by decide +kernel)
    obtain ⟨x, rfl, denotes⟩ := isLargeClamp_iff.1 large
    refine ⟨.float x, parsed, ?_, ?_⟩
    · have wraps : (Value.float x).Converts Int64.minValue :=
        .inr ⟨Value.isTooLarge_float_iff.2 denotes, rfl⟩
      exact (clamp_accepts _ _).2 ⟨_, 0, wraps, .inl (.int 0), by decide⟩
    · rintro ⟨n, exact⟩
      have greatest := n.toInt_lt
      rw [Value.denotes_float_iff.1 exact, Option.some_inj] at denotes
      omega

end OpCycle.Basics
