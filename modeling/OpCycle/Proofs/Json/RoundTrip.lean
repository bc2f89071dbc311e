import OpCycle.Json.Basic
import OpCycle.Proofs.Binary64.Nearest
import OpCycle.Proofs.Value.Everywhere
import OpCycle.Proofs.Words

/-! # Values and JSON trees
A value comes back from its tree as it was, keys in order and kinds included. A tree comes back from its value up
to its unsigned numbers, which settle for signed ones or for floats. Both ways maps are built by storing entries
one after another, so the keys of every map have to be unique.

* `toValue_ofValue`: a value with unique keys comes back from its tree.
* `replaceUnsigned`, `settled`: what becomes of the unsigned numbers of a tree.
* `conversions_lossless`: both directions. -/

namespace OpCycle

/-! ## Entries with new values -/

namespace OrderedMap

variable {α β : Type}

/-- Replacing the values keeps the keys:
`(entries.map fun entry => (entry.1, f entry.2)).map Prod.fst = entries.map Prod.fst`. -/
theorem map_fst_mapValues (f : α → β) (entries : List (Text × α)) :
    (entries.map fun entry => (entry.1, f entry.2)).map Prod.fst = entries.map Prod.fst := by
  rw [List.map_map]
  rfl

/-- Unique keys stay unique: `(⟨m.entries.map fun entry => (entry.1, f entry.2)⟩ : OrderedMap β).UniqueKeys`. -/
theorem UniqueKeys.mapValues {m : OrderedMap α} (unique : m.UniqueKeys) (f : α → β) :
    (⟨m.entries.map fun entry => (entry.1, f entry.2)⟩ : OrderedMap β).UniqueKeys := by
  rw [UniqueKeys, keys, map_fst_mapValues]
  exact unique

/-- Storing the entries of a map with new values one after another replaces the values:
`ofList (m.entries.map fun entry => (entry.1, f entry.2)) = ⟨m.entries.map fun entry => (entry.1, f entry.2)⟩`. -/
theorem ofList_mapValues {m : OrderedMap α} (unique : m.UniqueKeys) (f : α → β) :
    ofList (m.entries.map fun entry => (entry.1, f entry.2)) =
      ⟨m.entries.map fun entry => (entry.1, f entry.2)⟩ :=
  ofList_of_nodup (unique.mapValues f)

end OrderedMap

namespace Json

/-- The trees of values are made one by one: `ofValues items = items.map ofValue`. -/
theorem ofValues_eq_map (items : List Value) : ofValues items = items.map ofValue := by
  induction items with
  | nil => rfl
  | cons v rest ih => rw [ofValues, ih, List.map_cons]

/-- The members for entries are made one by one:
`ofFields fields = fields.map fun entry => (entry.1, ofValue entry.2)`. -/
theorem ofFields_eq_map (fields : List (Text × Value)) :
    ofFields fields = fields.map fun entry => (entry.1, ofValue entry.2) := by
  induction fields with
  | nil => rfl
  | cons entry rest ih => rw [ofFields, ih, List.map_cons]

/-- The values of trees are made one by one: `toValues items = items.map toValue`. -/
theorem toValues_eq_map (items : List Json) : toValues items = items.map toValue := by
  induction items with
  | nil => rfl
  | cons j rest ih => rw [toValues, ih, List.map_cons]

/-- The entries for members are made one by one:
`toFields members = members.map fun entry => (entry.1, toValue entry.2)`. -/
theorem toFields_eq_map (members : List (Text × Json)) :
    toFields members = members.map fun entry => (entry.1, toValue entry.2) := by
  induction members with
  | nil => rfl
  | cons entry rest ih => rw [toFields, ih, List.map_cons]

/-- The tree of a list: `ofValue (.list items) = .array (items.map ofValue)`. -/
@[simp] theorem ofValue_list (items : List Value) : ofValue (.list items) = .array (items.map ofValue) := by
  rw [ofValue, ofValues_eq_map]

/-- The tree of a map with unique keys:
`ofValue (.map m) = .object ⟨m.entries.map fun entry => (entry.1, ofValue entry.2)⟩`. -/
theorem ofValue_map {m : OrderedMap Value} (unique : m.UniqueKeys) :
    ofValue (.map m) = .object ⟨m.entries.map fun entry => (entry.1, ofValue entry.2)⟩ := by
  rw [ofValue, ofFields_eq_map, OrderedMap.ofList_mapValues unique]

/-- The value of an array: `toValue (.array items) = .list (items.map toValue)`. -/
@[simp] theorem toValue_array (items : List Json) : toValue (.array items) = .list (items.map toValue) := by
  rw [toValue, toValues_eq_map]

/-- The value of an object with unique keys:
`toValue (.object members) = .map ⟨members.entries.map fun entry => (entry.1, toValue entry.2)⟩`. -/
theorem toValue_object {members : OrderedMap Json} (unique : members.UniqueKeys) :
    toValue (.object members) = .map ⟨members.entries.map fun entry => (entry.1, toValue entry.2)⟩ := by
  rw [toValue, toFields_eq_map, OrderedMap.ofList_mapValues unique]

/-! ## From values and back -/

/-- A value with unique keys comes back from its tree: `(ofValue v).toValue = v`. -/
theorem toValue_ofValue {v : Value} (keyed : v.Everywhere Value.HasUniqueKeys) : (ofValue v).toValue = v := by
  induction v with
  | null => rfl
  | bool b => rfl
  | int n => rfl
  | float x => rfl
  | text s => rfl
  | list items ih =>
    have inside := (Value.everywhere_list_iff.1 keyed).2
    have back : items.map (toValue ∘ ofValue) = items.map id :=
      List.map_congr_left fun v mem => ih v mem (inside v mem)
    rw [ofValue_list, toValue_array, List.map_map, back, List.map_id]
  | map m ih =>
    obtain ⟨unique, inside⟩ := Value.everywhere_map_iff.1 keyed
    have back : m.entries.map (fun entry => (entry.1, toValue (ofValue entry.2))) = m.entries.map id := by
      refine List.map_congr_left fun entry mem => ?_
      rw [ih entry mem (inside entry mem)]
      rfl
    -- Both ways the keys are unique, so storing the entries one after another is no more than listing them.
    rw [ofValue_map unique, toValue_object (unique.mapValues ofValue), List.map_map]
    exact congrArg (fun entries => Value.map ⟨entries⟩) (back.trans (List.map_id _))

end Json

/-! ## Equality of a value with itself -/

open Float.Model (UnpackedFloat) in
/-- A float that is a number equals itself: `(x == x)`. -/
theorem Binary64.beq_self {x : Float} (number : x.isNaN = false) : (x == x) = true := by
  have content : UnpackedFloat.isNaN x.toModel.unpack = false := number
  show UnpackedFloat.beq x.toModel.unpack x.toModel.unpack = true
  rw [UnpackedFloat.beq]
  cases unpacked : x.toModel.unpack with
  | notANumber =>
    rw [unpacked] at content
    cases content
  | infinity sign => cases sign <;> rfl
  | zero sign => rfl
  | finite sign m e pos =>
    have same : (compare e e).then (compare m m) = .eq := by
      rw [Std.compare_self, Std.compare_self]
      rfl
    cases sign
    · show (some ((compare e e).then (compare m m)).swap == some Ordering.eq) = true
      rw [same]
      rfl
    · show (some ((compare e e).then (compare m m)) == some Ordering.eq) = true
      rw [same]
      rfl

namespace Value

/-- Lists are equal when their values are: `beqList items items`. -/
theorem beqList_self {items : List Value} (same : ∀ v ∈ items, beq v v = true) : beqList items items = true := by
  induction items with
  | nil => rfl
  | cons v rest ih =>
    rw [List.forall_mem_cons] at same
    rw [beqList, same.1, ih same.2]
    rfl

/-- Maps are equal when their keys and values are: `beqFields fields fields`. -/
theorem beqFields_self {fields : List (Text × Value)} (same : ∀ entry ∈ fields, beq entry.2 entry.2 = true) :
    beqFields fields fields = true := by
  induction fields with
  | nil => rfl
  | cons entry rest ih =>
    rw [List.forall_mem_cons] at same
    rw [beqFields, same.1, ih same.2, beq_self_eq_true]
    rfl

/-- A value without a NaN inside equals itself: `(v == v)`. -/
theorem beq_self {v : Value} (numbers : v.Everywhere IsNotNaN) : (v == v) = true := by
  show beq v v = true
  induction v with
  | null => rfl
  | bool b => exact beq_self_eq_true b
  | int n => exact beq_self_eq_true n
  | float x => exact Binary64.beq_self numbers.self
  | text s => exact beq_self_eq_true s
  | list items ih =>
    exact beqList_self fun v mem => ih v mem ((everywhere_list_iff.1 numbers).2 v mem)
  | map m ih =>
    exact beqFields_self fun entry mem => ih entry mem ((everywhere_map_iff.1 numbers).2 entry mem)

end Value

namespace Json

/-! ## From trees and back -/

/-- What holds of an array or object as soon as it holds of all trees in it, and of all other trees, holds of every
tree: `∀ j, motive j`. -/
@[elab_as_elim, induction_eliminator]
theorem induction {motive : Json → Prop} (null : motive .null) (bool : ∀ b, motive (.bool b))
    (signed : ∀ n, motive (.signed n)) (unsigned : ∀ n, motive (.unsigned n)) (float : ∀ x, motive (.float x))
    (string : ∀ s, motive (.string s)) (array : ∀ items, (∀ j ∈ items, motive j) → motive (.array items))
    (object : ∀ m : OrderedMap Json, (∀ entry ∈ m.entries, motive entry.2) → motive (.object m)) :
    ∀ j, motive j :=
  @Json.rec motive (fun items => ∀ j ∈ items, motive j) (fun m => ∀ entry ∈ m.entries, motive entry.2)
    (fun members => ∀ entry ∈ members, motive entry.2) (fun entry => motive entry.2)
    null bool signed unsigned float string array object
    (List.forall_mem_nil _) (fun _ _ first rest => List.forall_mem_cons.2 ⟨first, rest⟩)
    (fun _ all => all)
    (List.forall_mem_nil _) (fun _ _ first rest => List.forall_mem_cons.2 ⟨first, rest⟩)
    (fun _ _ tree => tree)

mutual

/-- All objects in a tree have `UniqueKeys`. -/
def HasUniqueKeys : Json → Prop
  | .array items => HaveUniqueKeys items
  | .object ⟨members⟩ => (⟨members⟩ : OrderedMap Json).UniqueKeys ∧ MembersHaveUniqueKeys members
  | _ => True
termination_by structural j => j

/-- All objects in the elements of an array have `UniqueKeys`. -/
def HaveUniqueKeys : List Json → Prop
  | [] => True
  | j :: rest => HasUniqueKeys j ∧ HaveUniqueKeys rest
termination_by structural items => items

/-- All objects in the members of an object have `UniqueKeys`. -/
def MembersHaveUniqueKeys : List (Text × Json) → Prop
  | [] => True
  | (_, j) :: rest => HasUniqueKeys j ∧ MembersHaveUniqueKeys rest
termination_by structural members => members

end

/-- The elements of an array have unique keys if each of them has:
`HaveUniqueKeys items ↔ ∀ j ∈ items, j.HasUniqueKeys`. -/
theorem haveUniqueKeys_iff {items : List Json} : HaveUniqueKeys items ↔ ∀ j ∈ items, j.HasUniqueKeys := by
  induction items with
  | nil => exact ⟨fun _ => List.forall_mem_nil _, fun _ => trivial⟩
  | cons j rest ih => rw [HaveUniqueKeys, ih, List.forall_mem_cons]

/-- The members of an object have unique keys if each of their trees has:
`MembersHaveUniqueKeys members ↔ ∀ entry ∈ members, entry.2.HasUniqueKeys`. -/
theorem membersHaveUniqueKeys_iff {members : List (Text × Json)} :
    MembersHaveUniqueKeys members ↔ ∀ entry ∈ members, entry.2.HasUniqueKeys := by
  induction members with
  | nil => exact ⟨fun _ => List.forall_mem_nil _, fun _ => trivial⟩
  | cons entry rest ih => rw [MembersHaveUniqueKeys, ih, List.forall_mem_cons]

/-- An array has unique keys inside when its elements do:
`(Json.array items).HasUniqueKeys ↔ ∀ j ∈ items, j.HasUniqueKeys`. -/
theorem hasUniqueKeys_array_iff {items : List Json} :
    (Json.array items).HasUniqueKeys ↔ ∀ j ∈ items, j.HasUniqueKeys := by
  rw [HasUniqueKeys, haveUniqueKeys_iff]

/-- An object has unique keys inside when its own are unique and its members have them:
`(Json.object members).HasUniqueKeys ↔ members.UniqueKeys ∧ ∀ entry ∈ members.entries, entry.2.HasUniqueKeys`. -/
theorem hasUniqueKeys_object_iff {members : OrderedMap Json} :
    (Json.object members).HasUniqueKeys ↔
      members.UniqueKeys ∧ ∀ entry ∈ members.entries, entry.2.HasUniqueKeys := by
  rw [HasUniqueKeys, membersHaveUniqueKeys_iff]

mutual

/-- A tree with `replace n` in the place of every unsigned number `n`. -/
def replaceUnsigned (replace : UInt64 → Json) : Json → Json
  | .unsigned n => replace n
  | .array items => .array (replaceInItems replace items)
  | .object ⟨members⟩ => .object ⟨replaceInMembers replace members⟩
  | j => j
termination_by structural j => j

/-- The elements of an array, by `replaceUnsigned`. -/
def replaceInItems (replace : UInt64 → Json) : List Json → List Json
  | [] => []
  | j :: rest => replaceUnsigned replace j :: replaceInItems replace rest
termination_by structural items => items

/-- The members of an object, by `replaceUnsigned`. -/
def replaceInMembers (replace : UInt64 → Json) : List (Text × Json) → List (Text × Json)
  | [] => []
  | (key, j) :: rest => (key, replaceUnsigned replace j) :: replaceInMembers replace rest
termination_by structural members => members

end

variable {replace : UInt64 → Json}

/-- In an array the unsigned numbers of the elements are replaced:
`replaceUnsigned replace (.array items) = .array (items.map (replaceUnsigned replace))`. -/
@[simp] theorem replaceUnsigned_array (items : List Json) :
    replaceUnsigned replace (.array items) = .array (items.map (replaceUnsigned replace)) := by
  rw [replaceUnsigned]
  congr 1
  induction items with
  | nil => rfl
  | cons j rest ih => rw [replaceInItems, ih, List.map_cons]

/-- In an object the unsigned numbers of the members are replaced: `replaceUnsigned replace (.object ⟨members⟩) =
.object ⟨members.map fun entry => (entry.1, replaceUnsigned replace entry.2)⟩`. -/
@[simp] theorem replaceUnsigned_object (members : List (Text × Json)) :
    replaceUnsigned replace (.object ⟨members⟩) =
      .object ⟨members.map fun entry => (entry.1, replaceUnsigned replace entry.2)⟩ := by
  rw [replaceUnsigned]
  congr 2
  induction members with
  | nil => rfl
  | cons entry rest ih => rw [replaceInMembers, ih, List.map_cons]

/-- The tree that an unsigned number `n` becomes: a signed number where it fits, and a float beyond. -/
def settled (n : UInt64) : Json := ofValue (unsignedValue n)

/-- An unsigned number that fits has the integer of its value: `unsignedValue n = .int n.toInt64`. -/
theorem unsignedValue_of_le {n : UInt64} (fits : n.toNat ≤ 2 ^ 63 - 1) : unsignedValue n = .int n.toInt64 :=
  if_pos (UInt64.le_iff_toNat_le.2 fits)

/-- An unsigned number that does not fit has a float: `unsignedValue n = .float n.toFloat`. -/
theorem unsignedValue_of_lt {n : UInt64} (large : 2 ^ 63 - 1 < n.toNat) :
    unsignedValue n = .float n.toFloat := by
  have unfit : ¬ n.toNat ≤ Int64.maxValue.toUInt64.toNat := Nat.not_le_of_lt large
  exact if_neg (mt UInt64.le_iff_toNat_le.1 unfit)

/-- An unsigned number that fits becomes the signed one: `∃ i : Int64, settled n = .signed i ∧ i.toInt = n.toNat`. -/
theorem settled_of_le {n : UInt64} (fits : n.toNat ≤ 2 ^ 63 - 1) :
    ∃ i : Int64, settled n = .signed i ∧ i.toInt = n.toNat := by
  refine ⟨n.toInt64, ?_, Words.toInt_toInt64 (Nat.lt_of_le_of_lt fits (by decide))⟩
  rw [settled, unsignedValue_of_le fits, ofValue]

/-- An unsigned number that does not fit becomes the nearest float:
`∃ x, settled n = .float x ∧ Binary64.IsNearest x n.toNat`. -/
theorem settled_of_lt {n : UInt64} (large : 2 ^ 63 - 1 < n.toNat) :
    ∃ x, settled n = .float x ∧ Binary64.IsNearest x n.toNat := by
  refine ⟨n.toFloat, ?_, Binary64.isNearest_toFloat large⟩
  rw [settled, unsignedValue_of_lt large, ofValue]

/-- A tree with unique keys comes back from its value with its unsigned numbers settled:
`ofValue j.toValue = j.replaceUnsigned settled`. -/
theorem ofValue_toValue {j : Json} (keyed : j.HasUniqueKeys) : ofValue j.toValue = j.replaceUnsigned settled := by
  -- On the tree; unique keys pass to the members, and only unsigned numbers change on the way.
  induction j with
  | null => rfl
  | bool b => rfl
  | signed n => rfl
  | unsigned n => rfl
  | float x => rfl
  | string s => rfl
  | array items ih =>
    have inside := hasUniqueKeys_array_iff.1 keyed
    have back : items.map (ofValue ∘ toValue) = items.map (replaceUnsigned settled) :=
      List.map_congr_left fun j mem => ih j mem (inside j mem)
    rw [toValue_array, ofValue_list, List.map_map, back, replaceUnsigned_array]
  | object members ih =>
    obtain ⟨unique, inside⟩ := hasUniqueKeys_object_iff.1 keyed
    have back : members.entries.map (fun entry => (entry.1, ofValue (toValue entry.2))) =
        members.entries.map fun entry => (entry.1, replaceUnsigned settled entry.2) := by
      refine List.map_congr_left fun entry mem => ?_
      rw [ih entry mem (inside entry mem)]
    rw [toValue_object unique, ofValue_map (unique.mapValues toValue), List.map_map, replaceUnsigned_object, ← back]
    rfl

/-- **Values and trees convert into each other without loss.** A value with unique keys `Everywhere` comes back from
its tree as it was, and without a NaN inside it equals what comes back. A tree with unique keys comes back from its
value with its shape, its keys in order and its leaves, where an unsigned number becomes the signed one of the same
value if there is one, and else the nearest float, as `IsNearest` says. -/
theorem conversions_lossless :
    (∀ v : Value, v.Everywhere Value.HasUniqueKeys →
      (ofValue v).toValue = v ∧ (v.Everywhere Value.IsNotNaN → ((ofValue v).toValue == v) = true)) ∧
    ∃ settle : UInt64 → Json,
      (∀ n, n.toNat ≤ 2 ^ 63 - 1 → ∃ i : Int64, settle n = .signed i ∧ i.toInt = n.toNat) ∧
      (∀ n, 2 ^ 63 - 1 < n.toNat → ∃ x, settle n = .float x ∧ Binary64.IsNearest x n.toNat) ∧
      ∀ j : Json, j.HasUniqueKeys → ofValue j.toValue = j.replaceUnsigned settle := by
  refine ⟨fun v keyed => ?_, settled, fun _ => settled_of_le, fun _ => settled_of_lt, fun _ => ofValue_toValue⟩
  have back := toValue_ofValue keyed
  rw [back]
  exact ⟨rfl, Value.beq_self⟩

/-- A map with a negative zero and a list, in an order that is not alphabetic. -/
def sampleValue : Value :=
  .map ⟨[("zero", .float (Float.ofBits 0x8000000000000000)), ("items", .list [.int (-1), .null, .text "1"])]⟩

/-- An object with unsigned numbers on both sides of the limit. -/
def sampleTree : Json :=
  .object ⟨[("large", .unsigned 9223372036854775808), ("items", .array [.unsigned 9223372036854775807])]⟩

/-- The map comes back, and of the object the smaller number becomes a signed one. -/
theorem conversions_lossless_sample :
    (ofValue sampleValue).toValue = sampleValue ∧ ((ofValue sampleValue).toValue == sampleValue) = true ∧
      ∃ x, Binary64.IsNearest x 9223372036854775808 ∧ ofValue sampleTree.toValue =
        .object ⟨[("large", .float x), ("items", .array [.signed 9223372036854775807])]⟩ := by
  have keyed : sampleValue.Everywhere Value.HasUniqueKeys := by decide
  have numbers : sampleValue.Everywhere Value.IsNotNaN := by decide
  have uniqueTree : (⟨[("large", ()), ("items", ())]⟩ : OrderedMap Unit).UniqueKeys := by decide
  have treeKeyed : sampleTree.HasUniqueKeys := ⟨uniqueTree, trivial, ⟨trivial, trivial⟩, trivial⟩
  obtain ⟨values, settle, fits, large, trees⟩ := conversions_lossless
  obtain ⟨back, equal⟩ := values sampleValue keyed
  obtain ⟨x, becomesFloat, nearest⟩ := large 9223372036854775808 (by decide)
  obtain ⟨i, becomesSigned, same⟩ := fits 9223372036854775807 (by decide)
  have signed : i = 9223372036854775807 := Int64.toInt_inj.1 same
  refine ⟨back, equal numbers, x, nearest, ?_⟩
  rw [trees sampleTree treeKeyed]
  show object ⟨[("large", settle 9223372036854775808), ("items", .array [settle 9223372036854775807])]⟩ = _
  rw [becomesFloat, becomesSigned, signed]

end Json

end OpCycle
