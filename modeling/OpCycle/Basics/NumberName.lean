import OpCycle.Text.Basic

/-! # Numbers in words
The English name of an integer: groups of three digits, each below a thousand and followed by its scale,
from the most significant on. -/

namespace OpCycle.Basics

/-- The names of the numbers below twenty. -/
def ones : List Text :=
  ["zero", "one", "two", "three", "four", "five", "six", "seven", "eight", "nine", "ten", "eleven",
    "twelve", "thirteen", "fourteen", "fifteen", "sixteen", "seventeen", "eighteen", "nineteen"]

/-- The names of the multiples of ten; the first two have none. -/
def tens : List Text :=
  [[], [], "twenty", "thirty", "forty", "fifty", "sixty", "seventy", "eighty", "ninety"]

/-- The names of the powers of a thousand; the first has none. -/
def scales : List Text :=
  [[], "thousand", "million", "billion", "trillion", "quadrillion", "quintillion"]

/-- The entry of `table` at `index`. -/
def word (table : List Text) (index : Nat) : Text := table[index]?.getD []

/-- The words of `n < 100`. -/
def belowHundred (n : Nat) : List Text :=
  if n < 20 then [word ones n]
  else if n % 10 = 0 then [word tens (n / 10)]
  else [word tens (n / 10), word ones (n % 10)]

/-- The words of `n < 1000`. -/
def belowThousand (n : Nat) : List Text :=
  if n < 100 then belowHundred n
  else
    let hundreds : List Text := [word ones (n / 100), "hundred"]
    if n % 100 = 0 then hundreds else hundreds ++ belowHundred (n % 100)

/-- The words of a group `n < 1000` of three digits with its `scale`; a group of zeros has none. -/
def group (scale n : Nat) : List Text :=
  if n = 0 then [] else belowThousand n ++ if scale = 0 then [] else [word scales scale]

/-- The words of the groups of `n`, the least significant of which has this `scale`. -/
def groups (scale n : Nat) : List Text :=
  if n = 0 then [] else groups (scale + 1) (n / 1000) ++ group scale (n % 1000)
termination_by n
decreasing_by omega

/-- The words of `n`, with `negative` in front of those of a magnitude. -/
def numberWords (n : Int) : List Text :=
  let magnitude := if n = 0 then [word ones 0] else groups 0 n.natAbs
  if n < 0 then Text.ofString "negative" :: magnitude else magnitude

/-- The name of `n`: its `numberWords` with single spaces between them. -/
def numberName (n : Int64) : Text := Text.joinWith [Byte.space] (numberWords n.toInt)

end OpCycle.Basics
