import OpCycle.OrderedMap

/-! # Values
The dynamic values that op fields carry: nothing, booleans, 64-bit integers, floats, texts, lists and
ordered maps. The readers below never convert; asking for the wrong kind is a mismatch, which says what
was there and what was wanted. -/

namespace OpCycle

/-- A dynamic value. -/
inductive Value
  /-- No value. -/
  | null
  /-- A boolean. -/
  | bool (b : Bool)
  /-- A 64-bit integer. -/
  | int (n : Int64)
  /-- A double-precision float. -/
  | float (x : Float)
  /-- A text. -/
  | text (s : Text)
  /-- A list of values. -/
  | list (items : List Value)
  /-- An ordered map of values. -/
  | map (fields : OrderedMap Value)

/-- The kinds of values. -/
inductive Kind
  /-- No value. -/
  | null
  /-- A boolean. -/
  | bool
  /-- A 64-bit integer. -/
  | int
  /-- A double-precision float. -/
  | float
  /-- A text. -/
  | text
  /-- A list. -/
  | list
  /-- An ordered map. -/
  | map
  deriving DecidableEq, Repr

/-- The name of a kind in messages. -/
def Kind.label : Kind → Text
  | .null => "none"
  | .bool => "bool"
  | .int => "int"
  | .float => "float"
  | .text => "string"
  | .list => "list"
  | .map => "map"

/-- A value was not what a caller asked for. -/
structure Mismatch where
  /-- The kind of the value. -/
  actual : Kind
  /-- The name of what was asked for. -/
  wanted : Text
  /-- The rendering of the value, where the message is to show it. -/
  detail : Text
  deriving DecidableEq, Repr

/-- The wording of a `Mismatch`. -/
def Mismatch.message (m : Mismatch) : Text :=
  let detail : Text := if m.detail.isEmpty then [] else ": " ++ m.detail
  "cannot convert " ++ m.actual.label ++ " to " ++ m.wanted ++ detail

namespace Value

/-- Null stands in for a value that is not there. -/
instance : Inhabited Value := ⟨.null⟩

/-- The kind of a value. -/
def kind : Value → Kind
  | .null => .null
  | .bool _ => .bool
  | .int _ => .int
  | .float _ => .float
  | .text _ => .text
  | .list _ => .list
  | .map _ => .map

/-- Whether `v` is null. -/
def isNull (v : Value) : Bool := v.kind = .null

/-- Whether `v` is an integer or a float. -/
def isNumber (v : Value) : Bool := v.kind = .int ∨ v.kind = .float

/-- The mismatch of a value of another kind than `wanted`. -/
def notOfKind (v : Value) (wanted : Kind) : Mismatch := ⟨v.kind, wanted.label, []⟩

/-- The boolean, and a mismatch for every other kind. -/
def asBool : Value → Except Mismatch Bool
  | .bool b => .ok b
  | v => .error (v.notOfKind .bool)

/-- The integer, and a mismatch for every other kind. -/
def asInt : Value → Except Mismatch Int64
  | .int n => .ok n
  | v => .error (v.notOfKind .int)

/-- The text, and a mismatch for every other kind. -/
def asText : Value → Except Mismatch Text
  | .text s => .ok s
  | v => .error (v.notOfKind .text)

/-- The list, and a mismatch for every other kind. -/
def asList : Value → Except Mismatch (List Value)
  | .list items => .ok items
  | v => .error (v.notOfKind .list)

/-- The map, and a mismatch for every other kind. -/
def asMap : Value → Except Mismatch (OrderedMap Value)
  | .map fields => .ok fields
  | v => .error (v.notOfKind .map)

/-! ## Equality
Values are equal when they have the same kind and equal content: floats compare as numbers, so a NaN
differs from itself and both zeros agree, and maps compare with their order. -/

mutual

/-- Equality of values: of the same kind and with equal content; floats by `==`. -/
def beq : Value → Value → Bool
  | .null, .null => true
  | .bool a, .bool b => a == b
  | .int a, .int b => a == b
  | .float a, .float b => a == b
  | .text a, .text b => a == b
  | .list as, .list bs => beqList as bs
  | .map ⟨as⟩, .map ⟨bs⟩ => beqFields as bs
  | _, _ => false
termination_by structural v => v

/-- Equality of lists of values, by `beq`. -/
def beqList : List Value → List Value → Bool
  | [], [] => true
  | a :: as, b :: bs => beq a b && beqList as bs
  | _, _ => false
termination_by structural items => items

/-- Equality of lists of entries, by `==` for the keys and `beq` for the values. -/
def beqFields : List (Text × Value) → List (Text × Value) → Bool
  | [], [] => true
  | (key, a) :: as, (other, b) :: bs => key == other && beq a b && beqFields as bs
  | _, _ => false
termination_by structural fields => fields

end

/-- Values are compared with `Value.beq`. -/
instance : BEq Value := ⟨beq⟩

/-- Only an integer equals an integer: `(v == .int n) = true ↔ v = .int n`. -/
theorem beq_int_iff {v : Value} {n : Int64} : (v == .int n) = true ↔ v = .int n := by
  cases v with
  | int m =>
    rw [int.injEq]
    exact beq_iff_eq (a := m)
  | _ => exact ⟨fun h => (by cases h), fun h => (by cases h)⟩

/-- Only a text equals a text: `(v == .text s) = true ↔ v = .text s`. -/
theorem beq_text_iff {v : Value} {s : Text} : (v == .text s) = true ↔ v = .text s := by
  cases v with
  | text t =>
    rw [text.injEq]
    exact beq_iff_eq (a := t)
  | _ => exact ⟨fun h => (by cases h), fun h => (by cases h)⟩

/-- Maps of values are compared entry by entry, in order. -/
instance : BEq (OrderedMap Value) := ⟨fun m other => beqFields m.entries other.entries⟩

end Value

end OpCycle
