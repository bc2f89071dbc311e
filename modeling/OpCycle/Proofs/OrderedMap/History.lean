import Mathlib.Data.List.Induction
import OpCycle.OrderedMap

/-! # Ordered maps over time
What an ordered map holds after any calls on the empty one. The order of the keys follows from the keys of the
calls, and under a key there is the value that was stored last, unless the key was removed since. Every way to
read the map tells the same.

* `Call`, `run`: calls that change a map, and the map after them.
* `LastStored`, `keyOrder`: what is under a key, and the order of the keys.
* `ReadsAs`, `run_refines_history`: every way to read the map tells the same. -/

namespace OpCycle.OrderedMap

variable {α : Type}

/-- A call that changes an ordered map. -/
inductive Call (α : Type)
  /-- Stores a value under a key. -/
  | set (key : Text) (value : α)
  /-- Removes a key. -/
  | erase (key : Text)
  /-- Removes all keys. -/
  | clear
  /-- Overwrites the value that is found under a key, if one is. -/
  | assign (key : Text) (value : α)
  /-- Overwrites the value of the entry at a position, if there is one. -/
  | setAt (index : Nat) (value : α)
  /-- Starts anew with the entries of a list. -/
  | ofList (entries : List (Text × α))

namespace Call

/-- The map after the call on `m`. -/
def perform (m : OrderedMap α) : Call α → OrderedMap α
  | .set key value => m.set key value
  | .erase key => (m.remove key).2
  | .clear => ∅
  | .assign key value => m.replace key value
  | .setAt index value => m.setAt index value
  | .ofList entries => .ofList entries

/-- The keys in order after the call on a map with `keys`: a new key comes last, and one that is stored again stays
where it is. -/
def keysAfter (keys : List Text) : Call α → List Text
  | .set key _ => if key ∈ keys then keys else keys ++ [key]
  | .erase key => keys.filter fun other => other ≠ key
  | .clear => []
  | .assign _ _ => keys
  | .setAt _ _ => keys
  | .ofList entries => (entries.map Prod.fst).eraseDups

/-- The call stores `value` under `key` in a map with these `keys`. Of the entries of a list the last one under the
key counts. -/
def Stores (keys : List Text) (key : Text) (value : α) : Call α → Prop
  | .set other stored => other = key ∧ stored = value
  | .erase _ => False
  | .clear => False
  | .assign other stored => other ∈ keys ∧ other = key ∧ stored = value
  | .setAt index stored => keys[index]? = some key ∧ stored = value
  | .ofList entries => ∃ before after, entries = before ++ (key, value) :: after ∧ key ∉ after.map Prod.fst

/-- The call removes `key`. -/
def Removes (key : Text) : Call α → Prop
  | .set _ _ => False
  | .erase other => other = key
  | .clear => True
  | .assign _ _ => False
  | .setAt _ _ => False
  | .ofList entries => key ∉ entries.map Prod.fst

/-- The `call` leaves what is under `key` alone: it neither `Stores` anything there nor `Removes` it. -/
def Keeps (keys : List Text) (key : Text) (call : Call α) : Prop :=
  (∀ value, ¬ call.Stores keys key value) ∧ ¬ call.Removes key

end Call

/-- The map after `calls` on the empty one. -/
def run (calls : List (Call α)) : OrderedMap α := calls.foldl Call.perform ∅

/-- The keys in order after `calls` on the empty map. -/
def keyOrder (calls : List (Call α)) : List Text := calls.foldl Call.keysAfter []

/-- The `value` was stored last under `key`, and the key was not removed since. -/
inductive LastStored (key : Text) (value : α) : List (Call α) → Prop
  /-- The last call stores the value. -/
  | now {calls : List (Call α)} {call : Call α} (stores : call.Stores (keyOrder calls) key value) :
      LastStored key value (calls ++ [call])
  /-- The value was stored earlier, and the last call leaves it alone. -/
  | earlier {calls : List (Call α)} {call : Call α} (stored : LastStored key value calls)
      (keeps : call.Keeps (keyOrder calls) key) : LastStored key value (calls ++ [call])

/-- The ways to read `m` tell that it has the keys of `order` in this order, and that `Holds` says which value is
under which key. -/
structure ReadsAs (m : OrderedMap α) (order : List Text) (Holds : Text → α → Prop) : Prop where
  /-- These are the keys. -/
  keys_eq : m.keys = order
  /-- No key occurs twice. -/
  distinct : order.Nodup
  /-- A look-up finds what is under the key. -/
  find?_iff : ∀ key value, m.find? key = some value ↔ Holds key value
  /-- A look-up finds nothing where there is nothing. -/
  find?_none_iff : ∀ key, m.find? key = none ↔ ¬ ∃ value, Holds key value
  /-- The map contains what there is something under. -/
  contains_iff : ∀ key, m.contains key = true ↔ ∃ value, Holds key value
  /-- What has to be present is what is under the key. -/
  get_iff : ∀ key value, m.get key = .ok value ↔ Holds key value
  /-- Where there is nothing, the key is reported. -/
  get_error_iff : ∀ key, m.get key = .error ⟨key⟩ ↔ ¬ ∃ value, Holds key value
  /-- The position of a key is its place in the order. -/
  indexOf?_iff : ∀ key index, m.indexOf? key = some index ↔ order[index]? = some key
  /-- Other keys have no position. -/
  indexOf?_none_iff : ∀ key, m.indexOf? key = none ↔ key ∉ order
  /-- At the position of a key there is its entry. -/
  entryAt?_indexOf? : ∀ key index, m.indexOf? key = some index →
    ∃ value, Holds key value ∧ m.entryAt? index = some (key, value)

/-! ## One call -/

/-- Overwriting what is found under a key changes the look-up of this key only, and only if it is there:
`(m.replace key value).find? other = if key ∈ m.keys ∧ other = key then some value else m.find? other`. -/
theorem find?_replace (m : OrderedMap α) (key other : Text) (value : α) :
    (m.replace key value).find? other =
      if key ∈ m.keys ∧ other = key then some value else m.find? other := by
  rw [replace]
  by_cases there : key ∈ m.keys
  · rw [if_pos (contains_iff.2 there), find?_set]
    simp only [there, true_and]
  · rw [if_neg (mt contains_iff.1 there), if_neg fun both => there both.1]

/-- Storing under a present key changes its entry alone:
`(m.set key value).entries = m.entries.map fun entry => if entry.1 = key then (key, value) else entry`. -/
theorem entries_set_of_mem {m : OrderedMap α} (unique : m.UniqueKeys) {key : Text} (there : key ∈ m.keys)
    (value : α) :
    (m.set key value).entries = m.entries.map fun entry => if entry.1 = key then (key, value) else entry := by
  obtain ⟨entries⟩ := m
  simp only [set, keys, UniqueKeys] at unique there ⊢
  induction entries with
  | nil => cases there
  | cons entry rest ih =>
    obtain ⟨head, old⟩ := entry
    rw [List.map_cons, List.nodup_cons] at unique
    rw [List.map_cons, setEntry]
    by_cases same : head = key
    · -- No later entry has the key, so they all stay.
      have others : ∀ entry ∈ rest, (if entry.1 = key then (key, value) else entry) = id entry := by
        intro entry mem
        exact if_neg fun again => unique.1 (List.mem_map.2 ⟨entry, mem, again.trans same.symm⟩)
      rw [if_pos same, if_pos same, List.map_congr_left others, List.map_id, same]
    · rw [if_neg same, if_neg same, ih unique.2 ((List.mem_cons.1 there).resolve_left (Ne.symm same))]

/-- The last entry of a list under a key is found first from its end: `entries.reverse.lookup key = some value ↔ ∃
before after, entries = before ++ (key, value) :: after ∧ key ∉ after.map Prod.fst`. -/
theorem lookup_reverse_eq_some_iff {entries : List (Text × α)} {key : Text} {value : α} :
    entries.reverse.lookup key = some value ↔
      ∃ before after, entries = before ++ (key, value) :: after ∧ key ∉ after.map Prod.fst := by
  rw [List.lookup_eq_some_iff]
  constructor
  · rintro ⟨behind, front, split, others⟩
    refine ⟨front.reverse, behind.reverse, ?_, ?_⟩
    · rw [← List.reverse_reverse entries, split, List.reverse_append, List.reverse_cons, List.append_assoc,
        List.singleton_append]
    · rw [List.map_reverse, List.mem_reverse, List.mem_map]
      rintro ⟨entry, mem, same⟩
      exact bne_iff_ne.1 (others entry mem) same.symm
  · rintro ⟨before, after, rfl, others⟩
    refine ⟨after.reverse, before.reverse, ?_, fun entry mem => ?_⟩
    · rw [List.reverse_append, List.reverse_cons, List.append_assoc, List.singleton_append]
    · rw [List.mem_reverse] at mem
      exact bne_iff_ne.2 fun same => others (same ▸ List.mem_map_of_mem mem)

namespace Call

/-- A call keeps the keys distinct: `(call.perform m).UniqueKeys`. -/
theorem uniqueKeys_perform {m : OrderedMap α} (unique : m.UniqueKeys) (call : Call α) :
    (call.perform m).UniqueKeys := by
  cases call with
  | set key value => exact unique.set key value
  | erase key =>
    rw [perform, remove_eq]
    exact unique.erase key
  | clear => exact uniqueKeys_empty
  | assign key value =>
    rw [perform, replace]
    split
    · exact unique.set key value
    · exact unique
  | setAt index value => exact unique.setAt index value
  | ofList entries => exact uniqueKeys_ofList entries

/-- The order of the keys after a call follows from the one before:
`(call.perform m).keys = call.keysAfter m.keys`. -/
theorem keys_perform {m : OrderedMap α} (unique : m.UniqueKeys) (call : Call α) :
    (call.perform m).keys = call.keysAfter m.keys := by
  cases call with
  | set key value => exact keys_set m key value
  | erase key =>
    rw [perform, remove_eq]
    exact keys_erase unique key
  | clear => rfl
  | assign key value =>
    rw [perform, replace, keysAfter]
    split
    · next there => rw [keys_set, if_pos (contains_iff.1 there)]
    · rfl
  | setAt index value => exact keys_setAt m index value
  | ofList entries => exact keys_ofList entries

/-- After a call a value is found under a key exactly if the call stores it there, or if it was found before and the
call leaves it alone: `(call.perform m).find? key = some value ↔ call.Stores m.keys key value ∨ m.find? key = some
value ∧ call.Keeps m.keys key`. -/
theorem find?_perform_iff {m : OrderedMap α} (unique : m.UniqueKeys) (call : Call α) (key : Text) (value : α) :
    (call.perform m).find? key = some value ↔
      call.Stores m.keys key value ∨ m.find? key = some value ∧ call.Keeps m.keys key := by
  -- One case for each operation; what it stores and what it keeps is read off the map before it.
  cases call with
  | set other stored =>
    rw [perform, find?_set]
    by_cases same : key = other
    · simp [Stores, Keeps, same]
    · simp [Stores, Keeps, Removes, same, Ne.symm same]
  | erase other =>
    rw [perform, remove_eq, find?_erase unique]
    by_cases same : key = other
    · simp [Stores, Keeps, Removes, same]
    · simp [Stores, Keeps, Removes, same, Ne.symm same]
  | clear => simp [perform, Stores, Keeps, Removes]
  | assign other stored =>
    rw [perform, find?_replace]
    by_cases both : other ∈ m.keys ∧ key = other
    · obtain ⟨there, rfl⟩ := both
      simp [Stores, Keeps, there]
    · have others (v : α) : ¬ (Call.assign other stored).Stores m.keys key v := by
        rintro ⟨there, rfl, -⟩
        exact both ⟨there, rfl⟩
      simp [both, others, Keeps, Removes]
  | setAt index stored =>
    rw [perform]
    cases place : m.keys[index]? with
    | none =>
      rw [setAt_eq_self place]
      simp [Stores, Keeps, Removes, place]
    | some other =>
      rw [setAt_eq_set unique place, find?_set]
      by_cases same : key = other
      · simp [Stores, Keeps, place, same]
      · simp [Stores, Keeps, Removes, place, same, Ne.symm same]
  | ofList entries =>
    rw [perform, find?_ofList, lookup_reverse_eq_some_iff]
    -- A map built anew keeps nothing: a key of the list is stored, any other is dropped.
    have notKept : ¬ (Call.ofList entries).Keeps m.keys key := by
      rintro ⟨nothing, stays⟩
      cases found : entries.reverse.lookup key with
      | some v => exact nothing v (lookup_reverse_eq_some_iff.1 found)
      | none =>
        have absent : key ∉ (OrderedMap.ofList entries).keys :=
          find?_eq_none_iff.1 ((find?_ofList entries key).trans found)
        rw [keys_ofList, List.mem_eraseDups] at absent
        exact stays absent
    simp [Stores, notKept]

end Call

/-! ## Calls in a row -/

/-- One more call is performed on the map that the others left: `run (calls ++ [call]) = call.perform (run calls)`. -/
theorem run_concat (calls : List (Call α)) (call : Call α) :
    run (calls ++ [call]) = call.perform (run calls) := by
  rw [run, List.foldl_append]
  rfl

/-- One more call changes the order of the keys that the others left, as `Call.keysAfter` says. -/
theorem keyOrder_concat (calls : List (Call α)) (call : Call α) :
    keyOrder (calls ++ [call]) = call.keysAfter (keyOrder calls) := by
  rw [keyOrder, List.foldl_append]
  rfl

/-- A value is `LastStored` if the last call `Stores` it, or `Keeps` what was the last one stored. -/
theorem lastStored_concat_iff {key : Text} {value : α} {calls : List (Call α)} {call : Call α} :
    LastStored key value (calls ++ [call]) ↔
      call.Stores (keyOrder calls) key value ∨ LastStored key value calls ∧ call.Keeps (keyOrder calls) key := by
  constructor
  · generalize split : calls ++ [call] = history
    intro stored
    cases stored with
    | now stores =>
      obtain ⟨rfl, same⟩ := List.append_inj' split rfl
      cases same
      exact .inl stores
    | earlier stored keeps =>
      obtain ⟨rfl, same⟩ := List.append_inj' split rfl
      cases same
      exact .inr ⟨stored, keeps⟩
  · rintro (stores | ⟨stored, keeps⟩)
    · exact .now stores
    · exact .earlier stored keeps

/-- Calls in a row keep the keys distinct: `(run calls).UniqueKeys`. -/
theorem uniqueKeys_run (calls : List (Call α)) : (run calls).UniqueKeys := by
  induction calls using List.reverseRecOn with
  | nil => exact uniqueKeys_empty
  | append_singleton calls call ih =>
    rw [run_concat]
    exact call.uniqueKeys_perform ih

/-- The order of the keys after calls in a row follows from the keys of the calls:
`(run calls).keys = keyOrder calls`. -/
theorem keys_run (calls : List (Call α)) : (run calls).keys = keyOrder calls := by
  induction calls using List.reverseRecOn with
  | nil => rfl
  | append_singleton calls call ih =>
    rw [run_concat, keyOrder_concat, call.keys_perform (uniqueKeys_run calls), ih]

/-- After calls in a row, the value that was stored last is found:
`(run calls).find? key = some value ↔ LastStored key value calls`. -/
theorem find?_run_iff (calls : List (Call α)) (key : Text) (value : α) :
    (run calls).find? key = some value ↔ LastStored key value calls := by
  induction calls using List.reverseRecOn with
  | nil =>
    refine ⟨fun found => (by cases found), ?_⟩
    generalize empty : ([] : List (Call α)) = history
    intro stored
    cases stored with
    | now _ => exact absurd empty.symm (List.concat_ne_nil _ _)
    | earlier _ _ => exact absurd empty.symm (List.concat_ne_nil _ _)
  | append_singleton calls call ih =>
    rw [run_concat, call.find?_perform_iff (uniqueKeys_run calls), keys_run, ih, lastStored_concat_iff]

/-- A map with distinct keys reads as its keys and what is found under them: `m.ReadsAs m.keys Holds`. -/
theorem readsAs {m : OrderedMap α} (unique : m.UniqueKeys) {Holds : Text → α → Prop}
    (find?_iff : ∀ key value, m.find? key = some value ↔ Holds key value) : m.ReadsAs m.keys Holds where
  keys_eq := rfl
  distinct := unique
  find?_iff := find?_iff
  find?_none_iff key := by
    simp only [← find?_iff, ← Option.isSome_iff_exists, Option.not_isSome_iff_eq_none]
  contains_iff key := by
    simp only [← find?_iff, contains, Option.isSome_iff_exists]
  get_iff key value := by
    rw [← find?_iff, get]
    cases m.find? key with
    | none => simp
    | some found => simp
  get_error_iff key := by
    simp only [← find?_iff, get]
    cases m.find? key with
    | none => simp
    | some found => simp
  indexOf?_iff key index := indexOf?_eq_some_iff unique
  indexOf?_none_iff key := indexOf?_eq_none_iff
  entryAt?_indexOf? key index place := by
    rw [indexOf?_eq_some_iff unique, keys, List.getElem?_map, Option.map_eq_some_iff] at place
    obtain ⟨⟨_, value⟩, stands, rfl⟩ := place
    exact ⟨value, (find?_iff _ _).1 ((find?_eq_some_iff unique).2 (List.mem_of_getElem? stands)), stands⟩

/-- **An ordered map holds what was stored last, in the order of the first stores.** After any `calls` on the empty
map every way to read the map tells, as `ReadsAs` says, the keys of `keyOrder` and under a key the value that was
`LastStored`, unless the key was removed since. Storing under a present key changes its entry in place, and storing
under a new key appends one. Removing a key drops its entry alone, and tells whether it was there. -/
theorem run_refines_history (calls : List (Call α)) :
    (run calls).ReadsAs (keyOrder calls) (fun key value => LastStored key value calls) ∧
    (∀ key value, ((run calls).set key value).entries =
      if key ∈ keyOrder calls then
        (run calls).entries.map fun entry => if entry.1 = key then (key, value) else entry
      else (run calls).entries ++ [(key, value)]) ∧
    (∀ key, (run calls).remove key =
      (decide (key ∈ keyOrder calls), ⟨(run calls).entries.filter fun entry => entry.1 ≠ key⟩)) := by
  have unique := uniqueKeys_run calls
  refine ⟨?_, fun key value => ?_, fun key => ?_⟩
  · rw [← keys_run]
    exact readsAs unique (find?_run_iff calls)
  · rw [← keys_run]
    by_cases there : key ∈ (run calls).keys
    · rw [if_pos there, entries_set_of_mem unique there]
    · rw [if_neg there]
      exact setEntry_of_not_mem there value
  · have dropped : (run calls).erase key = ⟨(run calls).entries.filter fun entry => entry.1 ≠ key⟩ := by
      rw [← entries_erase unique]
    have told : (run calls).contains key = decide (key ∈ (run calls).keys) := by
      rw [Bool.eq_iff_iff, contains_iff, decide_eq_true_iff]
    rw [remove_eq, dropped, told, keys_run]

end OpCycle.OrderedMap
