import OpCycle.Text.Utf8
import OpCycle.Value.Basic

/-! # Conditions on every node of a value
Values nest: lists and maps hold values, which may be lists and maps again. Here are the induction over that
nesting, what it means that a condition holds of a value and of all values inside it, and the conditions that
matter to the notations of values.

* `Everywhere`: a condition holds of a value and of all values inside it.
* `HasUniqueKeys`, `IsExact`: the conditions for the notations. -/

namespace OpCycle.Value

/-- What holds of a list or map as soon as it holds of all values in it, and of all other values, holds of every
value: `∀ v, motive v`. -/
@[elab_as_elim, induction_eliminator]
theorem induction {motive : Value → Prop} (null : motive .null) (bool : ∀ b, motive (.bool b))
    (int : ∀ n, motive (.int n)) (float : ∀ x, motive (.float x)) (text : ∀ s, motive (.text s))
    (list : ∀ items, (∀ v ∈ items, motive v) → motive (.list items))
    (map : ∀ m : OrderedMap Value, (∀ entry ∈ m.entries, motive entry.2) → motive (.map m)) :
    ∀ v, motive v :=
  @Value.rec motive (fun items => ∀ v ∈ items, motive v) (fun m => ∀ entry ∈ m.entries, motive entry.2)
    (fun fields => ∀ entry ∈ fields, motive entry.2) (fun entry => motive entry.2)
    null bool int float text list map
    (List.forall_mem_nil _) (fun _ _ first rest => List.forall_mem_cons.2 ⟨first, rest⟩)
    (fun _ all => all)
    (List.forall_mem_nil _) (fun _ _ first rest => List.forall_mem_cons.2 ⟨first, rest⟩)
    (fun _ _ value => value)

/-! ## Holding everywhere -/

mutual

/-- The condition `p` holds of `v` and of all values inside it. -/
def Everywhere (p : Value → Prop) (v : Value) : Prop :=
  p v ∧ match v with
    | .list items => InItems p items
    | .map ⟨fields⟩ => InFields p fields
    | _ => True
termination_by structural v

/-- The condition `p` holds everywhere in the values of a list. -/
def InItems (p : Value → Prop) : List Value → Prop
  | [] => True
  | v :: rest => Everywhere p v ∧ InItems p rest
termination_by structural items => items

/-- The condition `p` holds everywhere in the values of a list of entries. -/
def InFields (p : Value → Prop) : List (Text × Value) → Prop
  | [] => True
  | (_, v) :: rest => Everywhere p v ∧ InFields p rest
termination_by structural fields => fields

end

mutual

/-- Whether `Everywhere p` holds of a value can be decided if `p` can. -/
def decideEverywhere (p : Value → Prop) [DecidablePred p] : (v : Value) → Decidable (v.Everywhere p)
  | .null => inferInstanceAs (Decidable (p .null ∧ True))
  | .bool b => inferInstanceAs (Decidable (p (.bool b) ∧ True))
  | .int n => inferInstanceAs (Decidable (p (.int n) ∧ True))
  | .float x => inferInstanceAs (Decidable (p (.float x) ∧ True))
  | .text s => inferInstanceAs (Decidable (p (.text s) ∧ True))
  | .list items =>
    have := decideInItems p items
    inferInstanceAs (Decidable (p (.list items) ∧ InItems p items))
  | .map ⟨fields⟩ =>
    have := decideInFields p fields
    inferInstanceAs (Decidable (p (.map ⟨fields⟩) ∧ InFields p fields))
termination_by structural v => v

/-- The decision of `InItems p`. -/
def decideInItems (p : Value → Prop) [DecidablePred p] : (items : List Value) → Decidable (InItems p items)
  | [] => .isTrue trivial
  | v :: rest =>
    have := decideEverywhere p v
    have := decideInItems p rest
    inferInstanceAs (Decidable (v.Everywhere p ∧ InItems p rest))
termination_by structural items => items

/-- The decision of `InFields p`. -/
def decideInFields (p : Value → Prop) [DecidablePred p] :
    (fields : List (Text × Value)) → Decidable (InFields p fields)
  | [] => .isTrue trivial
  | (_, v) :: rest =>
    have := decideEverywhere p v
    have := decideInFields p rest
    inferInstanceAs (Decidable (v.Everywhere p ∧ InFields p rest))
termination_by structural fields => fields

end

/-- Whether a decidable property holds everywhere in a value is decided by looking everywhere. -/
instance (p : Value → Prop) [DecidablePred p] (v : Value) : Decidable (v.Everywhere p) := decideEverywhere p v

variable {p : Value → Prop}

/-- What holds everywhere holds of the value itself: `p v`. -/
theorem Everywhere.self {v : Value} (h : v.Everywhere p) : p v := by
  cases v <;> exact h.1

/-- A property holds everywhere in items if it does in each of them:
`InItems p items ↔ ∀ v ∈ items, v.Everywhere p`. -/
theorem inItems_iff {items : List Value} : InItems p items ↔ ∀ v ∈ items, v.Everywhere p := by
  induction items with
  | nil => exact ⟨fun _ => List.forall_mem_nil _, fun _ => trivial⟩
  | cons v rest ih => rw [InItems, ih, List.forall_mem_cons]

/-- A property holds everywhere in fields if it does in each of their values:
`InFields p fields ↔ ∀ entry ∈ fields, entry.2.Everywhere p`. -/
theorem inFields_iff {fields : List (Text × Value)} :
    InFields p fields ↔ ∀ entry ∈ fields, entry.2.Everywhere p := by
  induction fields with
  | nil => exact ⟨fun _ => List.forall_mem_nil _, fun _ => trivial⟩
  | cons entry rest ih => rw [InFields, ih, List.forall_mem_cons]

/-- What holds everywhere in a list holds of the list, and everywhere in its values:
`(Value.list items).Everywhere p ↔ p (.list items) ∧ ∀ v ∈ items, v.Everywhere p`. -/
@[simp] theorem everywhere_list_iff {items : List Value} :
    (Value.list items).Everywhere p ↔ p (.list items) ∧ ∀ v ∈ items, v.Everywhere p := by
  rw [Everywhere, inItems_iff]

/-- What holds everywhere in a map holds of the map, and everywhere in its values:
`(Value.map m).Everywhere p ↔ p (.map m) ∧ ∀ entry ∈ m.entries, entry.2.Everywhere p`. -/
@[simp] theorem everywhere_map_iff {m : OrderedMap Value} :
    (Value.map m).Everywhere p ↔ p (.map m) ∧ ∀ entry ∈ m.entries, entry.2.Everywhere p := by
  rw [Everywhere, inFields_iff]

/-! ## Conditions -/

/-- A map has `UniqueKeys`. -/
def HasUniqueKeys : Value → Prop
  | .map m => m.UniqueKeys
  | _ => True

/-- Whether the keys of a map are unique is decided by comparing them. -/
instance : DecidablePred HasUniqueKeys
  | .map m => inferInstanceAs (Decidable m.UniqueKeys)
  | .null | .bool _ | .int _ | .float _ | .text _ | .list _ => .isTrue trivial

/-- The value is not the float that is no number. -/
def IsNotNaN : Value → Prop
  | .float x => x.isNaN = false
  | _ => True

/-- Whether a value is another float than NaN is decided by looking at it. -/
instance : DecidablePred IsNotNaN
  | .float x => inferInstanceAs (Decidable (x.isNaN = false))
  | .null | .bool _ | .int _ | .text _ | .list _ | .map _ => .isTrue trivial

/-- A text, and the keys of a map, are well-formed. -/
def IsWellSpelled : Value → Prop
  | .text s => Utf8.isWellFormed s = true
  | .map m => ∀ key ∈ m.keys, Utf8.isWellFormed key = true
  | _ => True

/-- Whether a text is well-formed is decided by reading it. -/
instance : DecidablePred IsWellSpelled
  | .text s => inferInstanceAs (Decidable (Utf8.isWellFormed s = true))
  | .map m => inferInstanceAs (Decidable (∀ key ∈ m.keys, Utf8.isWellFormed key = true))
  | .null | .bool _ | .int _ | .float _ | .list _ => .isTrue trivial

/-- The value is exact in JSON text: it is no float, and its keys are unique and, like a text, well-formed. -/
structure IsExact (v : Value) : Prop where
  noFloat : v.kind ≠ .float
  uniqueKeys : v.HasUniqueKeys
  wellSpelled : v.IsWellSpelled

/-- Whether a value is exact is decided by its three tests. -/
instance : DecidablePred IsExact := fun v =>
  decidable_of_iff (v.kind ≠ .float ∧ v.HasUniqueKeys ∧ v.IsWellSpelled)
    ⟨fun ⟨noFloat, unique, spelled⟩ => ⟨noFloat, unique, spelled⟩,
      fun h => ⟨h.noFloat, h.uniqueKeys, h.wellSpelled⟩⟩

end OpCycle.Value
