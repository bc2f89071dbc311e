import OpCycle.Binary64.Basic

/-! # Numerals for floats
The notations in which a float may be written: decimal and hexadecimal numerals with optional point and
exponent, and the names of infinity and of the float that is not a number, each with an optional sign
and letters of either case. A numeral whose value leaves the range of floats has no value. -/

namespace OpCycle.Binary64

/-- What a numeral says about the magnitude. -/
inductive Magnitude
  /-- The name of infinity. -/
  | infinite
  /-- The name of the float that is not a number. -/
  | nan
  /-- The magnitude `mantissa · 10 ^ exponent`. -/
  | decimal (mantissa : Nat) (exponent : Int)
  /-- The magnitude `mantissa · 2 ^ exponent`. -/
  | binary (mantissa : Nat) (exponent : Int)
  deriving DecidableEq, Repr

/-- A numeral: a sign and a magnitude. -/
structure Numeral where
  /-- Whether a minus stands in front. -/
  negative : Bool
  /-- The unsigned part. -/
  magnitude : Magnitude
  deriving DecidableEq, Repr

namespace Numeral

/-- Splits digits with at most one point among them off `s`: the digits before the point, those after it, and what
follows. -/
def splitPointed (isDigit : UInt8 → Bool) (s : Text) : Text × Text × Text :=
  let whole := s.takeWhile isDigit
  match s.dropWhile isDigit with
  | Byte.dot :: rest => (whole, rest.takeWhile isDigit, rest.dropWhile isDigit)
  | rest => (whole, [], rest)

/-- Reads the exponent at the end of a numeral: nothing, or `letter`, a sign and digits. -/
def readExponent? (letter : UInt8) : Text → Option Int
  | [] => some 0
  | b :: rest => if Byte.lower b = letter then Decimal.toInt? rest else none

/-- Reads `digits[.digits][e±digits]`, with a digit before or behind the point. -/
def readDecimal? (s : Text) : Option Magnitude :=
  let (whole, fraction, rest) := splitPointed Byte.isDigit s
  if whole.isEmpty && fraction.isEmpty then none
  else (readExponent? 0x65 rest).map fun exponent =>
    .decimal (Decimal.natOfDigits (whole ++ fraction)) (exponent - fraction.length)

/-- The natural that hexadecimal `digits` denote. -/
def natOfHexDigits (digits : Text) : Nat :=
  digits.foldl (fun n b => 16 * n + (Byte.hexValue? b).getD 0) 0

/-- Reads `digits[.digits][p±digits]`, where the digits before the exponent are hexadecimal. -/
def readHexadecimal? (s : Text) : Option Magnitude :=
  let (whole, fraction, rest) := splitPointed Byte.isHexDigit s
  if whole.isEmpty && fraction.isEmpty then none
  else (readExponent? 0x70 rest).map fun exponent =>
    .binary (natOfHexDigits (whole ++ fraction)) (exponent - 4 * fraction.length)

/-- The end of the name of a NaN: nothing, or word characters in `(..)`. -/
def isNanTag : Text → Bool
  | [] => true
  | Byte.openParen :: rest => rest.dropWhile Byte.isWord == [Byte.closeParen]
  | _ => false

/-- Reads an unsigned numeral: `inf`, `infinity`, `nan` with a tag, `0x` and hexadecimal digits, or decimal ones. -/
def readMagnitude? (s : Text) : Option Magnitude :=
  let start := Text.lower s
  if start = "inf" ∨ start = "infinity" then some .infinite
  else if start.take 3 = "nan" then if isNanTag (s.drop 3) then some .nan else none
  else if start.take 2 = "0x" then readHexadecimal? (s.drop 2)
  else readDecimal? s

/-- Reads a numeral: an optional sign and what `readMagnitude?` reads. -/
def read? (s : Text) : Option Numeral :=
  let (negative, rest) := Decimal.splitSign s
  (readMagnitude? rest).map fun magnitude => ⟨negative, magnitude⟩

/-- The number `num / den` has no float of full precision and is not a float: it stays below the least
normal float `2 ^ -1022` even when rounded to 53 bits, and it is no multiple of `2 ^ -1074`. -/
def losesPrecision (num den : Nat) : Bool :=
  num * Nat.pow 2 1076 < (Nat.pow 2 54 - 1) * den && num * Nat.pow 2 1074 % den != 0

/-- The float nearest to the magnitude; `none` when a written number overflows or loses precision near zero. -/
def magnitudeValue? : Magnitude → Option Float
  | .infinite => some infinity
  | .nan => some notANumber
  | .decimal mantissa exponent =>
    let top := Decimal.length mantissa + exponent
    if mantissa = 0 then some 0
    else if top < -330 ∨ 310 < top then none
    else if losesPrecision (mantissa * Nat.pow 10 exponent.toNat) (Nat.pow 10 (-exponent).toNat) then none
    else
      let x := ofDecimal mantissa exponent
      if x.isFinite then some x else none
  | .binary mantissa exponent =>
    let top := mantissa.log2 + exponent
    if mantissa = 0 then some 0
    else if top < -1100 ∨ 1100 < top then none
    else if losesPrecision (mantissa * Nat.pow 2 exponent.toNat) (Nat.pow 2 (-exponent).toNat) then none
    else
      let x := ofDyadic mantissa exponent
      if x.isFinite then some x else none

/-- The float that `n` denotes: its magnitude with its sign. -/
def value? (n : Numeral) : Option Float := (magnitudeValue? n.magnitude).map (withSign n.negative)

end Numeral

/-- Reads a float that may have white space around it. -/
def read? (s : Text) : Option Float := (Numeral.read? (Text.trim s)).bind Numeral.value?

end OpCycle.Binary64
