import OpCycle.Binary64.Basic

/-! # Shortest decimals
The fewest decimal digits that read back as a given float. The reals that round to `m · 2 ^ q` form an
interval around it, ends included exactly when `m` is even; for 1, 2, … 17 digits the two neighbours of
the float on that decimal grid are tested, and the first grid with a hit wins. -/

namespace OpCycle.Binary64

/-- A positive decimal `0.d₁d₂… · 10 ^ point`, given by its significant digits and its point. -/
structure Digits where
  /-- The significant digits, read as one natural. -/
  digits : Nat
  /-- How many of the places before the decimal point the digits begin at. -/
  point : Int
  deriving DecidableEq, Repr

/-- A positive rational number. -/
structure Ratio where
  /-- The numerator. -/
  num : Nat
  /-- The denominator. -/
  den : Nat

/-- The rational `mantissa · 2 ^ exponent`. -/
def Ratio.ofDyadic (mantissa : Nat) (exponent : Int) : Ratio :=
  if 0 ≤ exponent then ⟨mantissa * Nat.pow 2 exponent.natAbs, 1⟩
  else ⟨mantissa, Nat.pow 2 exponent.natAbs⟩

/-- The rational `r` times `10 ^ power`. -/
def Ratio.scale (r : Ratio) (power : Int) : Ratio :=
  if 0 ≤ power then ⟨r.num * Nat.pow 10 power.natAbs, r.den⟩
  else ⟨r.num, r.den * Nat.pow 10 power.natAbs⟩

/-- The `n` with `10 ^ (n - 1) ≤ r < 10 ^ n`. -/
def Ratio.magnitude (r : Ratio) : Int :=
  -- The numbers of digits of both parts give the magnitude, or one less.
  let guess : Int := Decimal.length r.num - Decimal.length r.den
  let scaled := r.scale (-guess)
  if scaled.den ≤ scaled.num then guess + 1 else guess

/-- The grid point `candidate`, a multiple of the unit in which the float is `scaled`, reads back as the
float with this mantissa. The lower half of the interval is narrower at a power of two. -/
def readsBack (mantissa : Nat) (narrow : Bool) (scaled : Ratio) (candidate : Nat) : Bool :=
  -- All three are the candidate and the ends of the interval in the same unit, free of fractions.
  let middle := 4 * mantissa * candidate * scaled.den
  let low := (4 * mantissa - if narrow then 1 else 2) * scaled.num
  let high := (4 * mantissa + 2) * scaled.num
  if mantissa % 2 = 0 then low ≤ middle && middle ≤ high else low < middle && middle < high

/-- The nearest multiple of the unit to `scaled` that reads back, halves to the even one. -/
def nearestOnGrid? (mantissa : Nat) (narrow : Bool) (scaled : Ratio) : Option Nat :=
  let below := scaled.num / scaled.den
  let hit := readsBack mantissa narrow scaled
  match hit below, hit (below + 1) with
  | false, false => none
  | true, false => some below
  | false, true => some (below + 1)
  | true, true =>
    let twice := 2 * scaled.num
    let middle := (2 * below + 1) * scaled.den
    if twice < middle ∨ (twice = middle ∧ below % 2 = 0) then some below else some (below + 1)

/-- Drops the decimal zeros at the end of `n`. -/
def stripZeros (n : Nat) : Nat :=
  if n = 0 then 0 else if n % 10 = 0 then stripZeros (n / 10) else n
termination_by n
decreasing_by omega

/-- The shortest decimal that reads back as the positive float `mantissa · 2 ^ exponent`. -/
def shortest (mantissa : Nat) (exponent : Int) : Digits :=
  let value := Ratio.ofDyadic mantissa exponent
  let point := value.magnitude
  let narrow := mantissa == Nat.pow 2 52 && (-1074 : Int) < exponent
  let hit := (List.range 17).findSome? fun (i : Nat) =>
    (nearestOnGrid? mantissa narrow (value.scale (i + 1 - point))).map fun n => (i + 1, n)
  match hit with
  | some (places, n) => ⟨stripZeros n, point + Decimal.length n - places⟩
  | none => ⟨0, 0⟩

end OpCycle.Binary64
