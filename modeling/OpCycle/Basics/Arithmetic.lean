import OpCycle.Text.Basic

/-! # Integer functions
The arithmetic behind the built-in functions, on 64-bit integers that wrap around. -/

namespace OpCycle.Basics

/-- Mixes the bits of a word: `x ^^^ (x >>> 33)` three times, around two multiplications by odd constants, each of
them invertible. -/
def mix (x : UInt64) : UInt64 :=
  let x := x ^^^ (x >>> 33)
  let x := x * 0xff51afd7ed558ccd
  let x := x ^^^ (x >>> 33)
  let x := x * 0xc4ceb9fe1a85ec53
  x ^^^ (x >>> 33)

/-- The bits of `mix n.toUInt64` without the sign bit. -/
def hash (n : Int64) : Int64 := (mix n.toUInt64 &&& 0x7fffffffffffffff).toInt64

/-- The remainder of `n` that lies between zero and a positive `modulus`. -/
def modulo (modulus n : Int64) : Int64 :=
  let r := n % modulus
  if r < 0 then r + modulus else r

/-- The quotient `n / divisor` rounded toward zero; the one quotient that does not fit wraps around. -/
def divide (divisor n : Int64) : Int64 := if divisor = -1 then n * -1 else n / divisor

/-- The integer `n` brought between `low` and `high`. -/
def clamp (low high n : Int64) : Int64 := if n < low then low else if high < n then high else n

/-- An integer from `low` to `high`, chosen by the mixed bits of `n`. A width of zero stands for all words. -/
def hashRange (low high n : Int64) : Int64 :=
  let width := high.toUInt64 - low.toUInt64 + 1
  let h := mix n.toUInt64
  let offset := if width = 0 then h else h % width
  (low.toUInt64 + offset).toInt64

/-- The letters and digits that `alphaNumeric` draws from. -/
def alphabet : Text := "0123456789ABCDEFGHIJKLMNOPQRSTUVWXYZabcdefghijklmnopqrstuvwxyz"

/-- The word after a word in the sequence that `alphaNumeric` draws with. -/
def nextWord (state : UInt64) : UInt64 := mix (state + 0x9e3779b97f4a7c15)

/-- The letter or digit that `state` picks from `alphabet`. -/
def letterOf (state : UInt64) : UInt8 := alphabet[(state % 62).toNat]?.getD Byte.zero

/-- So many letters and digits, one per word of the sequence after this one: `letterOf (nextWord state)` and so on. -/
def draw : Nat → UInt64 → Text
  | 0, _ => []
  | count + 1, state => letterOf (nextWord state) :: draw count (nextWord state)

/-- Puts the letters and digits of `draw` behind those in `drawn`. -/
def drawOnto : Nat → UInt64 → Array UInt8 → Array UInt8
  | 0, _, drawn => drawn
  | count + 1, state, drawn =>
    let state := nextWord state
    drawOnto count state (drawn.push (letterOf state))

/-- Drawing onto an array draws the same letters and digits:
`(drawOnto count state drawn).toList = drawn.toList ++ draw count state`. -/
theorem toList_drawOnto (count : Nat) (state : UInt64) (drawn : Array UInt8) :
    (drawOnto count state drawn).toList = drawn.toList ++ draw count state := by
  induction count generalizing drawn state with
  | zero => rw [drawOnto, draw, List.append_nil]
  | succ count ih =>
    rw [drawOnto, draw, ih, Array.toList_push, List.append_assoc, List.singleton_append]

/-- So many letters and digits as `length` says, chosen by the mixed bits of `n`. -/
def alphaNumeric (length n : Int64) : Text :=
  (drawOnto length.toInt.toNat (mix n.toUInt64) #[]).toList

/-- The letters and digits are those of the sequence after the mixed bits:
`alphaNumeric length n = draw length.toInt.toNat (mix n.toUInt64)`. -/
theorem alphaNumeric_eq_draw (length n : Int64) :
    alphaNumeric length n = draw length.toInt.toNat (mix n.toUInt64) := by
  rw [alphaNumeric, toList_drawOnto, List.nil_append]

end OpCycle.Basics
