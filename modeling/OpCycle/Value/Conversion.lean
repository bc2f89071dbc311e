import OpCycle.Binary64.Numeral
import OpCycle.Json.Printer

/-! # Conversion of values
The text of a value, and best-effort conversion of a value to the type a caller works with. Texts are parsed,
integral floats count as integers, and everything but null converts to its text; what does not convert is a
mismatch, or falls back to a default.

The text of a list or a map is its JSON, and JSON cannot hold a text that is not well-formed UTF-8. Where
`Value.toText` has nothing to give for this reason, the conversions that need the text fail as well: `tryConvert`
and `convertOr` to a text, and `convert` to whatever type, since its mismatch shows the text. -/

namespace OpCycle

/-- Why a value cannot be made into what a caller asks for. -/
inductive ValueFault
  /-- It does not convert. -/
  | mismatch (m : Mismatch)
  /-- It has no text, since a text in it is not well-formed. -/
  | illFormed (fault : Utf8.Fault)
  deriving DecidableEq, Repr

/-- The wording of a `ValueFault`. -/
def ValueFault.message : ValueFault → Text
  | .mismatch m => m.message
  | .illFormed fault => "[json.exception.type_error.316] " ++ fault.message

/-- The types a value can be converted to. -/
inductive Target
  /-- Booleans. -/
  | bool
  /-- 32-bit integers. -/
  | int32
  /-- 64-bit integers. -/
  | int64
  /-- 64-bit integers, under the name that a wide integer has in messages. -/
  | wide
  /-- Double-precision floats. -/
  | double
  /-- Floats rounded to single precision. -/
  | single
  /-- Texts. -/
  | text
  /-- Values as they are. -/
  | value
  /-- Lists of values. -/
  | list
  /-- Ordered maps of values. -/
  | map
  deriving DecidableEq, Repr

namespace Target

/-- The name of a target in messages, such as `long long`. -/
def label : Target → Text
  | .bool => "bool"
  | .int32 => "int"
  | .int64 => "long"
  | .wide => "long long"
  | .double => "double"
  | .single => "float"
  | .text => "string"
  | .value => "value"
  | .list => "list"
  | .map => "map"

/-- What a conversion to the target yields, such as `Int64` for `.int64`. -/
abbrev Carrier : Target → Type
  | .bool => Bool
  | .int32 => Int32
  | .int64 | .wide => Int64
  | .double | .single => Float
  | .text => Text
  | .value => Value
  | .list => List Value
  | .map => OrderedMap Value

end Target

namespace Value

/-! ## Texts -/

/-- The text of a value: a text is itself, everything else is its compact JSON, by `Json.dump`. A list or a map with a
text in it that is not well-formed has none. -/
def toText : Value → Except ValueFault Text
  | .text s => .ok s
  | v => (Json.ofValue v).dump.mapError .illFormed

/-! ## Conversions -/

/-- Reads `true` or `false`, with white space around it and letters of either case. -/
def readBool? (s : Text) : Option Bool :=
  let word := Text.lower (Text.trim s)
  if word = "true" then some true else if word = "false" then some false else none

/-- The float of a number, and a mismatch for every other kind. -/
def asFloat : Value → Except Mismatch Float
  | .float x => .ok x
  | .int n => .ok (Binary64.ofInt64 n)
  | v => .error (v.notOfKind .float)

/-- The 64-bit integer of an integral float. The range check is made on floats, where the largest 64-bit
integer is not representable: `2 ^ 63` passes and wraps around. -/
def integralFloat? (x : Float) : Option Int64 :=
  match Binary64.toInt? x with
  | some n => if Int64.minValue.toInt ≤ n ∧ n ≤ Int64.maxValue.toInt + 1 then some (Int64.ofInt n) else none
  | none => none

/-- A value as a boolean. -/
def toBool? : Value → Option Bool
  | .bool b => some b
  | .text s => readBool? s
  | _ => none

/-- A value as a 64-bit integer. -/
def toInt64? : Value → Option Int64
  | .int n => some n
  | .float x => integralFloat? x
  | .text s => Decimal.readInt64? s
  | _ => none

/-- A value as a 32-bit integer: `v.toInt64?`, if that fits. -/
def toInt32? (v : Value) : Option Int32 := v.toInt64?.bind fun n => Decimal.int32? n.toInt

/-- A value as a float. -/
def toFloat? : Value → Option Float
  | .int n => some (Binary64.ofInt64 n)
  | .float x => some x
  | .text s => Binary64.read? s
  | _ => none

/-- A value as a text: every value but null has one, by `v.toText`, unless a text in it is not well-formed. -/
def toText? (v : Value) : Except ValueFault (Option Text) :=
  if v.isNull then .ok none else v.toText.map some

/-- A value as a list. -/
def toList? : Value → Option (List Value)
  | .list items => some items
  | _ => none

/-- A value as a map. -/
def toMap? : Value → Option (OrderedMap Value)
  | .map fields => some fields
  | _ => none

/-- Converts a value to `target`, if it converts. Only the conversion to `.text` can fail. -/
def tryConvert : (target : Target) → Value → Except ValueFault (Option target.Carrier)
  | .bool, v => .ok v.toBool?
  | .int32, v => .ok v.toInt32?
  | .int64, v => .ok v.toInt64?
  | .wide, v => .ok v.toInt64?
  | .double, v => .ok v.toFloat?
  | .single, v => .ok (v.toFloat?.map Binary64.toSingle)
  | .text, v => v.toText?
  | .value, v => .ok (some v)
  | .list, v => .ok v.toList?
  | .map, v => .ok v.toMap?

/-- What is raised where `v` does not convert to `target`: a mismatch that shows the text of `v`, or, where it has no
text, the fault of `v.toText`. -/
def refusal (target : Target) (v : Value) : ValueFault :=
  match v.toText with
  | .ok shown => .mismatch ⟨v.kind, target.label, shown⟩
  | .error fault => fault

/-- Converts `v` to `target`; where it does not convert, the error is `v.refusal target`. -/
def convert (target : Target) (v : Value) : Except ValueFault target.Carrier := do
  match ← tryConvert target v with
  | some x => pure x
  | none => .error (v.refusal target)

/-- Converts `v` to `target`, or falls back to `default`. Null always falls back, also where it would convert. -/
def convertOr (target : Target) (v : Value) (default : target.Carrier) : Except ValueFault target.Carrier :=
  if v.isNull then .ok default else (tryConvert target v).map (·.getD default)

/-- Converts `v` to a 64-bit integer, under the name `long long` in messages. -/
def toInt64 (v : Value) : Except ValueFault Int64 := convert .wide v

end Value

end OpCycle
