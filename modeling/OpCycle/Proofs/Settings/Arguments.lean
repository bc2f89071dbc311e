import OpCycle.Proofs.Json.Reading
import OpCycle.Proofs.Text.Span
import OpCycle.Settings.Activity

/-! # Parameters as arguments
Parameters can be passed on as `key=value` arguments with their values in JSON text, and are read as what they
were: the key ends at the first equals sign, and the text behind it is read as the value.

* `argument?`: the argument that passes a parameter on.
* `parameters_read_back`: the arguments of parameters are read as the parameters. -/

namespace OpCycle.Activity

/-- The argument `key=text` that passes a parameter on, with its value as compact JSON text. A value with an
ill-formed text inside has none. -/
def argument? (entry : Text × Value) : Option Text :=
  (Json.render? .compact (Json.ofValue entry.2)).map fun text => entry.1 ++ Byte.equals :: text

/-- The argument `key=text` of a parameter with an exact value. -/
def argumentOf (entry : Text × Value) : Text := entry.1 ++ Byte.equals :: Json.textOf entry.2

/-- An entry with an exact value has an argument: `argument? entry = some (argumentOf entry)`. -/
theorem argument?_of_isExact {entry : Text × Value} (isExact : entry.2.Everywhere Value.IsExact) :
    argument? entry = some (argumentOf entry) := by
  rw [argument?, Json.render?, if_pos (Json.isWellFormed_ofValue isExact)]
  rfl

/-- An argument is read as its key and its value, unless the key is empty or has an equals sign:
`readArgument? (argumentOf entry) = some entry`. -/
theorem readArgument?_argumentOf {entry : Text × Value} (nonempty : entry.1 ≠ [])
    (noEquals : Byte.equals ∉ entry.1) (isExact : entry.2.Everywhere Value.IsExact) :
    readArgument? (argumentOf entry) = some entry := by
  obtain ⟨key, v⟩ := entry
  have absent : ¬ [Byte.equals] <:+: key ++ [Byte.equals].dropLast := by
    intro found
    rw [show [Byte.equals].dropLast = [] from rfl, List.append_nil] at found
    exact noEquals (found.mem List.mem_cons_self)
  -- The text of the value may have equals signs, but the first one of all is the one behind the key.
  have cut := Text.cut?_append (List.cons_ne_nil _ _) absent (Json.textOf v)
  rw [List.singleton_append] at cut
  rw [readArgument?, argumentOf, cut]
  dsimp only
  rw [if_neg (mt List.isEmpty_iff.1 nonempty), Json.looseValue_textOf isExact]

/-- A step that always succeeds, on every element of a list: `items.mapM f = some (items.map g)`. -/
theorem mapM_eq_some_map {α β : Type} {f : α → Option β} {g : α → β} {items : List α}
    (all : ∀ item ∈ items, f item = some (g item)) : items.mapM f = some (items.map g) := by
  induction items with
  | nil => rfl
  | cons item rest ih =>
    rw [List.forall_mem_cons] at all
    rw [List.mapM_cons, all.1, ih all.2]
    rfl

/-- **Parameters survive as arguments.** Parameters with distinct keys that are not empty and have no equals sign, and
with values that are `IsExact` everywhere, all have an `argument?`, and the arguments are read as these parameters in
this order. -/
theorem parameters_read_back {m : OrderedMap Value} (unique : m.UniqueKeys)
    (keys : ∀ key ∈ m.keys, key ≠ [] ∧ Byte.equals ∉ key)
    (values : ∀ entry ∈ m.entries, entry.2.Everywhere Value.IsExact) :
    ∃ args, m.entries.mapM argument? = some args ∧ ofArguments? args = some ⟨m⟩ := by
  refine ⟨_, mapM_eq_some_map fun entry mem => argument?_of_isExact (values entry mem), ?_⟩
  have read : ∀ entry ∈ m.entries, (readArgument? ∘ argumentOf) entry = some (id entry) := by
    intro entry mem
    obtain ⟨nonempty, noEquals⟩ := keys entry.1 (List.mem_map_of_mem mem)
    exact readArgument?_argumentOf nonempty noEquals (values entry mem)
  rw [ofArguments?, List.mapM_map, mapM_eq_some_map read, List.map_id, Option.map_some,
    OrderedMap.ofList_of_nodup unique]

/-- Parameters of every kind but floats, with escapes, the least integer and nesting. -/
def sampleParameters : OrderedMap Value :=
  ⟨[("least", .int Int64.minValue), ("text", .text [Byte.doubleQuote, 0x01, Byte.equals, 0xc3, 0xa9]),
    ("items", .list [.map ⟨[("b", .bool true), ("a", .null)]⟩, .int 7, .list []])]⟩

/-- The arguments of `sampleParameters`. -/
def sampleArguments : List Text :=
  ["least=-9223372036854775808", "text=\"\\\"\\u0001=é\"", "items=[\x7b\"b\":true,\"a\":null\x7d,7,[]]"]

/-- The sample parameters are read from these arguments: `sampleParameters.entries.mapM argument? = some
sampleArguments ∧ ofArguments? sampleArguments = some ⟨sampleParameters⟩`. -/
theorem parameters_read_back_sample :
    sampleParameters.entries.mapM argument? = some sampleArguments ∧
      ofArguments? sampleArguments = some ⟨sampleParameters⟩ := by
  have made : sampleParameters.entries.mapM argument? = some sampleArguments := by decide +kernel
  have values : ∀ entry ∈ sampleParameters.entries, entry.2.Everywhere Value.IsExact := by decide
  obtain ⟨args, same, read⟩ := parameters_read_back (by decide) (by decide) values
  rw [made] at same
  cases same
  exact ⟨made, read⟩

end OpCycle.Activity
