import OpCycle.Text.Decimal

/-! # Double-precision floats, exactly
The content of a float as integers, the float nearest to a scaled integer, the integer that a float
denotes, and rounding to single precision. Everything is computed on naturals, so each function says
which real number it stands for. -/

namespace OpCycle.Binary64

/-- The content of a float. -/
inductive Parts
  /-- Not a number. -/
  | nan
  /-- An infinity. -/
  | infinite (negative : Bool)
  /-- The number `mantissa · 2 ^ exponent`, or its negation. -/
  | finite (negative : Bool) (mantissa : Nat) (exponent : Int)
  deriving DecidableEq, Repr

/-- Decodes a float. The mantissa is below `2 ^ 53`, and at least `2 ^ 52` above the least exponent. -/
def parts (x : Float) : Parts :=
  let bits : Nat := x.toBits.toNat
  let negative := bits.testBit 63
  let field : Nat := bits / Nat.pow 2 52 % Nat.pow 2 11
  let fraction : Nat := bits % Nat.pow 2 52
  if field = 2047 then
    if fraction = 0 then .infinite negative else .nan
  else if field = 0 then .finite negative fraction (-1074)
  else .finite negative (Nat.pow 2 52 + fraction) ((field : Int) - 1075)

/-- Positive infinity. -/
def infinity : Float := Float.ofBits 0x7ff0000000000000

/-- The float that is not a number. -/
def notANumber : Float := Float.ofBits 0x7ff8000000000000

/-- Gives a float that has no sign its sign: `-x` if `negative`. -/
def withSign (negative : Bool) (x : Float) : Float := if negative then -x else x

/-- The float nearest to `mantissa · 10 ^ exponent`, infinity from half a step above the largest one.
Magnitudes far outside the range of floats are settled by their number of digits. -/
def ofDecimal (mantissa : Nat) (exponent : Int) : Float :=
  let top := Decimal.length mantissa + exponent
  if mantissa = 0 ∨ top < -330 then 0
  else if 310 < top then infinity
  else Float.ofScientific mantissa (exponent < 0) exponent.natAbs

/-- The float nearest to `mantissa · 2 ^ exponent`, as `ofDecimal` for powers of two. -/
def ofDyadic (mantissa : Nat) (exponent : Int) : Float :=
  let top := mantissa.log2 + exponent
  if mantissa = 0 ∨ top < -1100 then 0
  else if 1100 < top then infinity
  else if exponent < 0 then
    Float.ofScientific (mantissa * Nat.pow 5 exponent.natAbs) true exponent.natAbs
  else Float.ofScientific (mantissa * Nat.pow 2 exponent.natAbs) false 0

/-- The float nearest to `n`. -/
def ofInt64 (n : Int64) : Float := withSign (n < 0) (ofDecimal n.toInt.natAbs 0)

/-- The integer that `x` denotes exactly, if it denotes one. -/
def toInt? (x : Float) : Option Int :=
  match parts x with
  | .finite negative mantissa exponent =>
    if 0 ≤ exponent then some (Decimal.signed negative (mantissa * Nat.pow 2 exponent.natAbs))
    else if mantissa % Nat.pow 2 exponent.natAbs = 0 then
      some (Decimal.signed negative (mantissa / Nat.pow 2 exponent.natAbs))
    else none
  | _ => none

/-- `n / 2 ^ k` rounded to the nearest natural, halves to the even neighbour. -/
def roundShift (n k : Nat) : Nat :=
  let quotient := n / Nat.pow 2 k
  let twice := 2 * (n % Nat.pow 2 k)
  if Nat.pow 2 k < twice ∨ (twice = Nat.pow 2 k ∧ quotient % 2 = 1) then quotient + 1 else quotient

/-- The nearest number of single precision: 24 bits, no step below `2 ^ -149`, and an infinity from half
a step above the largest. -/
def toSingle (x : Float) : Float :=
  match parts x with
  | .finite negative mantissa exponent =>
    -- 53 bits lose 29, and more of them where the step `2 ^ -149` is coarser than that.
    let shift := max 29 (-149 - exponent).toNat
    let rounded := roundShift mantissa shift
    let scale := exponent + shift
    if 0 ≤ scale ∧ Nat.pow 2 128 ≤ rounded * Nat.pow 2 scale.toNat then withSign negative infinity
    else withSign negative (ofDyadic rounded scale)
  | _ => x

end OpCycle.Binary64
