import OpCycle.Settings.Activity

/-! # Maps laid over one another
Laying maps over one another is a monoid. Two maps with distinct keys are the same if they have the same keys in the
same order and the same look-ups, so a law about layers comes down to one about lists of keys and one about
look-ups.

* `eq_of_find?`: maps with the same keys and look-ups are the same.
* `entries_overlay`: the entries of a map over another one.
* `layers_form_monoid`: laying over is associative, with the empty map as its unit. -/

namespace OpCycle

namespace OrderedMap

variable {α : Type}

/-- A map with distinct keys is given by its keys in order and its look-ups: `m = other`. -/
theorem eq_of_find? {m other : OrderedMap α} (unique : m.UniqueKeys) (sameKeys : m.keys = other.keys)
    (sameValues : ∀ key, m.find? key = other.find? key) : m = other := by
  have uniqueOther : other.UniqueKeys := by
    rw [UniqueKeys, ← sameKeys]
    exact unique
  have same : m.entries = other.entries := by
    refine List.ext_getElem? fun index => ?_
    have sameKey : (m.entries[index]?).map Prod.fst = (other.entries[index]?).map Prod.fst := by
      rw [← List.getElem?_map, ← List.getElem?_map]
      exact congrArg (·[index]?) sameKeys
    cases mine : m.entries[index]? with
    | none =>
      rw [mine, Option.map_none, eq_comm, Option.map_eq_none_iff] at sameKey
      exact sameKey.symm
    | some entry =>
      rw [mine, Option.map_some, eq_comm, Option.map_eq_some_iff] at sameKey
      obtain ⟨entry', its, sameKey⟩ := sameKey
      have found := (find?_eq_some_iff unique).2 (List.mem_of_getElem? mine)
      have found' := (find?_eq_some_iff uniqueOther).2 (List.mem_of_getElem? its)
      rw [sameValues, ← sameKey, found', Option.some_inj] at found
      rw [its, Prod.ext sameKey found]
  cases m
  cases other
  exact congrArg mk same

/-- A list without repetitions keeps all its elements: `keys.eraseDups = keys`. -/
theorem eraseDups_of_nodup {keys : List Text} (distinct : keys.Nodup) : keys.eraseDups = keys := by
  induction keys with
  | nil => rfl
  | cons key rest ih =>
    rw [List.nodup_cons] at distinct
    have others : ∀ other ∈ rest, (!other == key) = true := by
      intro other mem
      rw [Bool.not_eq_true', beq_eq_false_iff_ne]
      rintro rfl
      exact distinct.1 mem
    rw [List.eraseDups_cons, List.filter_eq_self.2 others, ih distinct.2]

/-- Laying a map over another one appends its new keys in their order:
`(m.overlay top).keys = m.keys ++ top.keys.filter fun key => key ∉ m.keys`. -/
theorem keys_overlay (m : OrderedMap α) {top : OrderedMap α} (unique : top.UniqueKeys) :
    (m.overlay top).keys = m.keys ++ top.keys.filter fun key => key ∉ m.keys := by
  have fresh : top.keys.removeAll m.keys = top.keys.filter fun key => key ∉ m.keys := by
    rw [List.removeAll]
    exact List.filter_congr fun key _ => by simp
  rw [overlay, keys_overlayEntries, ← keys, fresh, eraseDups_of_nodup (List.Pairwise.filter _ unique)]

/-- Laying a map over one with unique keys keeps the keys unique: `(m.overlay top).UniqueKeys`. -/
theorem UniqueKeys.overlay {m : OrderedMap α} (h : m.UniqueKeys) (top : OrderedMap α) :
    (m.overlay top).UniqueKeys := h.overlayEntries top.entries

/-- Changing the values of some entries changes what is found:
`(entries.map fun entry => (entry.1, f entry)).lookup key = (entries.lookup key).map fun old => f (key, old)`. -/
theorem lookup_map_entries (f : Text × α → α) (entries : List (Text × α)) (key : Text) :
    (entries.map fun entry => (entry.1, f entry)).lookup key =
      (entries.lookup key).map fun old => f (key, old) := by
  induction entries with
  | nil => rfl
  | cons entry rest ih =>
    rw [List.map_cons, List.lookup_cons, List.lookup_cons, ih]
    by_cases same : key = entry.1
    · subst same
      simp
    · rw [beq_eq_false_iff_ne.2 same]

/-- Among the entries whose keys pass a test, those keys are found:
`(entries.filter fun entry => passes entry.1).lookup key = if passes key then entries.lookup key else none`. -/
theorem lookup_filter_keys (passes : Text → Bool) (entries : List (Text × α)) (key : Text) :
    (entries.filter fun entry => passes entry.1).lookup key =
      if passes key then entries.lookup key else none := by
  induction entries with
  | nil => simp
  | cons entry rest ih =>
    obtain ⟨head, value⟩ := entry
    rw [List.lookup_cons, List.filter_cons]
    by_cases same : key = head
    · subst same
      by_cases passed : passes key = true
      · simp [passed]
      · simp [passed, ih]
    · by_cases passed : passes head = true
      · rw [if_pos passed, List.lookup_cons, beq_eq_false_iff_ne.2 same, ih]
      · rw [if_neg passed, beq_eq_false_iff_ne.2 same, ih]

/-- `m.overlay top` changes the values of the keys of `m` in place and appends the new entries of `top`. -/
theorem entries_overlay {m top : OrderedMap α} (unique : m.UniqueKeys) (uniqueTop : top.UniqueKeys) :
    (m.overlay top).entries =
      m.entries.map (fun entry => (entry.1, (top.find? entry.1).getD entry.2)) ++
        top.entries.filter fun entry => entry.1 ∉ m.keys := by
  suffices same : m.overlay top = ⟨m.entries.map (fun entry => (entry.1, (top.find? entry.1).getD entry.2)) ++
      top.entries.filter fun entry => entry.1 ∉ m.keys⟩ by rw [same]
  refine eq_of_find? (unique.overlay top) ?_ fun key => ?_
  · rw [keys_overlay m uniqueTop]
    simp only [keys, List.map_append, List.map_map, List.filter_map]
    rfl
  · have fresh := lookup_filter_keys (fun key => key ∉ m.keys) top.entries key
    rw [find?_overlay m uniqueTop, find?, find?, find?, List.lookup_append, lookup_map_entries, fresh]
    cases mine : m.entries.lookup key with
    | none =>
      have absent : key ∉ m.keys := find?_eq_none_iff.1 mine
      simp [absent]
    | some old =>
      have there : key ∈ m.keys := List.mem_map_of_mem (mem_of_find? mine)
      cases its : top.entries.lookup key with
      | none => simp [there, find?, its]
      | some new => simp [there, find?, its]

/-- Layers can be put together in any grouping: `(m.overlay middle).overlay top = m.overlay (middle.overlay top)`. -/
theorem overlay_assoc {m middle top : OrderedMap α} (unique : m.UniqueKeys) (uniqueMiddle : middle.UniqueKeys)
    (uniqueTop : top.UniqueKeys) : (m.overlay middle).overlay top = m.overlay (middle.overlay top) := by
  have uniqueUpper := uniqueMiddle.overlay top
  refine eq_of_find? ((unique.overlay middle).overlay top) ?_ fun key => ?_
  · rw [keys_overlay _ uniqueTop, keys_overlay _ uniqueMiddle, keys_overlay _ uniqueUpper,
      keys_overlay _ uniqueTop, List.filter_append, List.append_assoc, List.filter_filter]
    congr 2
    refine List.filter_congr fun key _ => ?_
    by_cases there : key ∈ m.keys
    · simp [there]
    · simp [there]
  · rw [find?_overlay _ uniqueTop, find?_overlay _ uniqueMiddle, find?_overlay _ uniqueUpper,
      find?_overlay _ uniqueTop, Option.or_assoc]

/-- The empty map on top changes nothing: `m.overlay ∅ = m`. -/
theorem overlay_empty (m : OrderedMap α) : m.overlay ∅ = m := rfl

/-- A map over the empty one is itself: `(∅ : OrderedMap α).overlay m = m`. -/
theorem empty_overlay {m : OrderedMap α} (unique : m.UniqueKeys) : (∅ : OrderedMap α).overlay m = m :=
  ofList_of_nodup unique

/-- A map over itself is itself: `m.overlay m = m`. -/
theorem overlay_self {m : OrderedMap α} (unique : m.UniqueKeys) : m.overlay m = m := by
  refine eq_of_find? (unique.overlay m) ?_ fun key => ?_
  · have known : m.keys.filter (fun key => key ∉ m.keys) = [] := by
      refine List.filter_eq_nil_iff.2 fun key mem => ?_
      simpa using mem
    rw [keys_overlay m unique, known, List.append_nil]
  · rw [find?_overlay m unique, Option.or_self]

end OrderedMap

namespace Activity

/-- **Layers of parameters form a monoid.** For parameters with `UniqueKeys`, `overlay` keeps the keys distinct and is
associative, with the order of the keys; no parameters are neutral on both sides, and parameters over themselves
change nothing. Each look-up asks the upper layer first, whatever value it has, and the new keys of the upper layer
follow those of the lower one. -/
theorem layers_form_monoid {a b c : Activity} (uniqueA : a.params.UniqueKeys) (uniqueB : b.params.UniqueKeys)
    (uniqueC : c.params.UniqueKeys) :
    (a.overlay b).params.UniqueKeys ∧
    (a.overlay b).overlay c = a.overlay (b.overlay c) ∧
    a.overlay ∅ = a ∧ (∅ : Activity).overlay a = a ∧
    a.overlay a = a ∧
    (∀ key, (a.overlay b).params.find? key =
      if b.contains key then b.params.find? key else a.params.find? key) ∧
    (∀ key, (a.overlay b).get key = if b.contains key then b.get key else a.get key) ∧
    (a.overlay b).params.keys = a.params.keys ++ b.params.keys.filter fun key => key ∉ a.params.keys := by
  have found (key : Text) : (a.overlay b).params.find? key =
      if b.contains key then b.params.find? key else a.params.find? key := by
    rw [overlay, OrderedMap.find?_overlay _ uniqueB, contains, OrderedMap.contains]
    cases b.params.find? key with
    | none => rfl
    | some value => rfl
  refine ⟨uniqueA.overlay b.params, ?_, ?_, ?_, ?_, found, fun key => ?_, OrderedMap.keys_overlay _ uniqueB⟩
  · exact congrArg mk (OrderedMap.overlay_assoc uniqueA uniqueB uniqueC)
  · exact congrArg mk (OrderedMap.overlay_empty a.params)
  · exact congrArg mk (OrderedMap.empty_overlay uniqueA)
  · exact congrArg mk (OrderedMap.overlay_self uniqueA)
  · rw [get, found, get, get]
    split
    · rfl
    · rfl

/-- Three layers: the second has null for a key of the first, and the third has one for a key of each. -/
def sampleLayers : Activity × Activity × Activity :=
  (⟨⟨[("threads", .int 1), ("driver", .text "stdout")]⟩⟩, ⟨⟨[("rate", .int 5), ("threads", .null)]⟩⟩,
    ⟨⟨[("driver", .text "cql"), ("rate", .int 7)]⟩⟩)

/-- Three layers with a null in the middle one: both ways to lay them over one another agree, and the null hides the
value beneath it. -/
theorem layers_form_monoid_sample :
    sampleLayers.1.params.UniqueKeys ∧ sampleLayers.2.1.params.UniqueKeys ∧ sampleLayers.2.2.params.UniqueKeys ∧
    (sampleLayers.1.overlay sampleLayers.2.1).overlay sampleLayers.2.2 =
      sampleLayers.1.overlay (sampleLayers.2.1.overlay sampleLayers.2.2) ∧
    (sampleLayers.1.overlay sampleLayers.2.1).get "threads" = .null ∧
    (sampleLayers.1.overlay sampleLayers.2.1).params.keys = (["threads", "driver", "rate"] : List Text) := by
  have uniqueA : sampleLayers.1.params.UniqueKeys := by decide
  have uniqueB : sampleLayers.2.1.params.UniqueKeys := by decide
  have uniqueC : sampleLayers.2.2.params.UniqueKeys := by decide
  obtain ⟨-, assoc, -, -, -, -, get, keys⟩ := layers_form_monoid uniqueA uniqueB uniqueC
  refine ⟨uniqueA, uniqueB, uniqueC, assoc, ?_, ?_⟩
  · rw [get]
    rfl
  · rw [keys]
    decide

end Activity

end OpCycle
