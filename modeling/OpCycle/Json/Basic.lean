import OpCycle.Value.Basic

/-! # JSON trees
The tree of a JSON document, which keeps apart signed, unsigned and floating numbers, and its relation to
values. A value becomes a tree without loss; of trees, only the unsigned numbers have no value of their
own: they become integers where they fit and floats beyond. Both ways a map is built by storing one entry
after another. -/

namespace OpCycle

/-- A JSON tree. -/
inductive Json
  /-- The null literal. -/
  | null
  /-- A boolean literal. -/
  | bool (b : Bool)
  /-- A number written with a sign, or made from a 64-bit integer. -/
  | signed (n : Int64)
  /-- A number written without a sign. -/
  | unsigned (n : UInt64)
  /-- A number with a fraction or an exponent, or too large for 64 bits. -/
  | float (x : Float)
  /-- A string. -/
  | string (s : Text)
  /-- An array. -/
  | array (items : List Json)
  /-- An object, its members in order. -/
  | object (members : OrderedMap Json)

namespace Json

/-- The null literal stands in for a tree that is not there. -/
instance : Inhabited Json := ⟨.null⟩

mutual

/-- The tree of a value: an integer is `signed`, a map an `object` with its keys once each. -/
def ofValue : Value → Json
  | .null => .null
  | .bool b => .bool b
  | .int n => .signed n
  | .float x => .float x
  | .text s => .string s
  | .list items => .array (ofValues items)
  | .map ⟨fields⟩ => .object (.ofList (ofFields fields))
termination_by structural v => v

/-- The trees of a list of values, by `ofValue`. -/
def ofValues : List Value → List Json
  | [] => []
  | v :: rest => ofValue v :: ofValues rest
termination_by structural items => items

/-- The members of a list of entries, by `ofValue`. -/
def ofFields : List (Text × Value) → List (Text × Json)
  | [] => []
  | (key, v) :: rest => (key, ofValue v) :: ofFields rest
termination_by structural fields => fields

end

/-- The tree of `m`, an `object`. -/
def ofMap (m : OrderedMap Value) : Json := .object (.ofList (ofFields m.entries))

/-- The value of an unsigned number: an integer where `n` fits one, else the float `n.toFloat`. -/
def unsignedValue (n : UInt64) : Value :=
  if n ≤ Int64.maxValue.toUInt64 then .int n.toInt64 else .float n.toFloat

mutual

/-- The value of a tree: an `unsigned` number by `unsignedValue`, an `object` a map. -/
def toValue : Json → Value
  | .null => .null
  | .bool b => .bool b
  | .signed n => .int n
  | .unsigned n => unsignedValue n
  | .float x => .float x
  | .string s => .text s
  | .array items => .list (toValues items)
  | .object ⟨members⟩ => .map (.ofList (toFields members))
termination_by structural j => j

/-- The values of a list of trees, by `toValue`. -/
def toValues : List Json → List Value
  | [] => []
  | j :: rest => toValue j :: toValues rest
termination_by structural items => items

/-- The entries of a list of members, by `toValue`. -/
def toFields : List (Text × Json) → List (Text × Value)
  | [] => []
  | (key, j) :: rest => (key, toValue j) :: toFields rest
termination_by structural members => members

end

end Json

end OpCycle
