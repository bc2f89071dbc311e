import OpCycle.Basics.NumberName
import OpCycle.Basics.Weighted
import OpCycle.Catalog.Resolve

/-! # The built-in functions
The definitions that every catalog of the program starts from. Functions on integers convert what flows
into them, so they also take texts and floats that denote integers; functions on anything render it. -/

namespace OpCycle.Basics

/-! ## Making steps -/

/-- The step that maps the integer in a value: `v.toInt64.map f`. -/
def onInt (f : Int64 → Value) : Step := { run := fun v => v.toInt64.map f }

/-- The step that maps the text of a value: `v.toText.map f`, which fails where the value has none. -/
def onText (f : Text → Text) : Step := { run := fun v => v.toText.map fun s => .text (f s) }

/-- An argument as a text: `v.toText`, with its fault as a `Refusal`. -/
def textArgument (v : Value) : Except Refusal Text := v.toText.mapError .argument

/-- An argument as a 64-bit integer: `v.toInt64`, with its fault as a `Refusal`. -/
def intArgument (v : Value) : Except Refusal Int64 := v.toInt64.mapError .argument

/-- An argument as a positive 64-bit integer; the rule names the `quantity`. -/
def positiveArgument (quantity : Text) (v : Value) : Except Refusal Int64 := do
  let n ← intArgument v
  if n ≤ 0 then .error (.rule (quantity ++ " must be positive")) else pure n

/-- Two arguments as bounds with `low ≤ high`. -/
def boundArguments (low high : Value) : Except Refusal (Int64 × Int64) := do
  let low ← intArgument low
  let high ← intArgument high
  if high < low then .error (.rule "min must not exceed max") else pure (low, high)

/-- The refusal of a wrong number of arguments, which the checks before a call rule out. -/
def wrongCount : Refusal := .rule "wrong number of arguments"

/-- A maker for calls `F()`. -/
def noArguments (step : Step) : Maker
  | [] => .ok step
  | _ => .error wrongCount

/-- A maker for calls `F(a)`. -/
def oneArgument (make : Value → Except Refusal Step) : Maker
  | [a] => make a
  | _ => .error wrongCount

/-- A maker for calls `F(a, b)`. -/
def twoArguments (make : Value → Value → Except Refusal Step) : Maker
  | [a, b] => make a b
  | _ => .error wrongCount

/-! ## Definitions -/

/-- `Identity()`: the value as it is. -/
def identity : Definition :=
  { name := "Identity", output := .same, sample := "Identity()", maker := some (noArguments { run := .ok }) }

/-- `Hash()`: a non-negative mix of the bits. -/
def hashing : Definition :=
  { name := "Hash", input := .int, output := .int, sample := "Hash()",
    maker := some (noArguments (onInt fun n => .int (hash n))) }

/-- `Mod(m)`: the remainder by a positive modulus. -/
def moduloBy : Definition :=
  { name := "Mod", minArgs := 1, maxArgs := 1, input := .int, output := .int, sample := "Mod(100)",
    maker := some (oneArgument fun a => do
      let modulus ← positiveArgument "modulus" a
      pure (onInt fun n => .int (modulo modulus n))) }

/-- `Add(a)`: the sum with an addend. -/
def addition : Definition :=
  { name := "Add", minArgs := 1, maxArgs := 1, input := .int, output := .int, sample := "Add(1000)",
    maker := some (oneArgument fun a => do
      let addend ← intArgument a
      pure (onInt fun n => .int (n + addend))) }

/-- `Mul(a)`: the product with a factor. -/
def multiplication : Definition :=
  { name := "Mul", minArgs := 1, maxArgs := 1, input := .int, output := .int, sample := "Mul(3)",
    maker := some (oneArgument fun a => do
      let factor ← intArgument a
      pure (onInt fun n => .int (n * factor))) }

/-- `Div(a)`: the quotient by a divisor other than zero. -/
def division : Definition :=
  { name := "Div", minArgs := 1, maxArgs := 1, input := .int, output := .int, sample := "Div(10)",
    maker := some (oneArgument fun a => do
      let divisor ← intArgument a
      if divisor = 0 then .error (.rule "divisor must not be zero")
      else pure (onInt fun n => .int (divide divisor n))) }

/-- `Clamp(a, b)`: the value brought between two bounds. -/
def clamping : Definition :=
  { name := "Clamp", minArgs := 2, maxArgs := 2, input := .int, output := .int,
    sample := "Clamp(10,20)",
    maker := some (twoArguments fun a b => do
      let (low, high) ← boundArguments a b
      pure (onInt fun n => .int (clamp low high n))) }

/-- `HashRange(a, b)`: a value between two bounds, chosen by the bits. -/
def ranging : Definition :=
  { name := "HashRange", category := "distributions", minArgs := 2, maxArgs := 2, input := .int,
    output := .int, sample := "HashRange(1,100)",
    maker := some (twoArguments fun a b => do
      let (low, high) ← boundArguments a b
      pure (onInt fun n => .int (hashRange low high n))) }

/-- `ToString()`: the text of the value. -/
def rendering : Definition :=
  { name := "ToString", category := "conversion", output := .text, sample := "ToString()",
    maker := some (noArguments (onText id)) }

/-- `NumberNameToString()`: the name of the number. -/
def naming : Definition :=
  { name := "NumberNameToString", category := "conversion", input := .int, output := .text,
    sample := "NumberNameToString()",
    maker := some (noArguments (onInt fun n => .text (numberName n))) }

/-- `AlphaNumeric(n)`: letters and digits of a positive length, chosen by the bits. -/
def lettering : Definition :=
  { name := "AlphaNumeric", category := "premade", minArgs := 1, maxArgs := 1, input := .int,
    output := .text, sample := "AlphaNumeric(8)",
    maker := some (oneArgument fun a => do
      let length ← positiveArgument "length" a
      pure { onInt fun n => .text (alphaNumeric length n) with room := length.toInt.toNat }) }

/-- What flows out of `FixedValue(a)`: the kind of `a`, if it is an integer or a text. -/
def fixedKind : List Value → FlowKind
  | .int _ :: _ => .int
  | .text _ :: _ => .text
  | _ => .any

/-- `FixedValue(a)`: the value `a`, whatever flows in. -/
def fixing : Definition :=
  { name := "FixedValue", minArgs := 1, maxArgs := 1, sample := "FixedValue('abc')",
    maker := some (oneArgument fun a => .ok { run := fun _ => .ok a }), outputOf := some fixedKind }

/-- `Prefix(t)`: the text of the value behind `t`. -/
def leading : Definition :=
  { name := "Prefix", category := "conversion", minArgs := 1, maxArgs := 1, output := .text,
    sample := "Prefix('user-')",
    maker := some (oneArgument fun a => do
      let fixed ← textArgument a
      pure (onText (fixed ++ ·))) }

/-- `Suffix(t)`: the text of the value in front of `t`. -/
def trailing : Definition :=
  { name := "Suffix", category := "conversion", minArgs := 1, maxArgs := 1, output := .text,
    sample := "Suffix('@example.com')",
    maker := some (oneArgument fun a => do
      let fixed ← textArgument a
      pure (onText (· ++ fixed))) }

/-- `WeightedStrings(t)`: a label from the items of `t`, chosen by weight. -/
def weighing : Definition :=
  { name := "WeightedStrings", category := "distributions", minArgs := 1, maxArgs := 1, input := .int,
    output := .text, sample := "WeightedStrings('red:1;green:2;blue:7')",
    maker := some (oneArgument fun a => do
      let items ← (Value.convert .text a).mapError .argument
      let table ← WeightTable.read items
      pure (onInt fun n => .text (table.pick n))) }

/-- The library `basics` of built-in functions. -/
def library : Library :=
  ⟨"basics",
    [identity, hashing, moduloBy, addition, multiplication, division, clamping, ranging, rendering,
      naming, lettering, fixing, leading, trailing, weighing]⟩

/-- The catalog that holds just the `library`. -/
def catalog : Catalog := Catalog.addLibrary ∅ library

/-- What the built-in function `name` makes of `args`. -/
def builtIn (name : Text) (args : List Value) : Except Refusal Step :=
  match (catalog.find? name).bind Definition.maker with
  | some make => make args
  | none => .error wrongCount

end OpCycle.Basics
