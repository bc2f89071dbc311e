import OpCycle.Text.Basic

/-! # Maps in insertion order
A map from texts that remembers the order in which its keys were first stored. Storing under a present
key replaces the value in place; storing under a new key appends. Maps are small, so every look-up
walks the entries. -/

namespace OpCycle

/-- A map from texts, as its `entries` in order. The operations below keep `UniqueKeys`. -/
structure OrderedMap (α : Type) where
  /-- The entries, oldest key first. -/
  entries : List (Text × α)
  deriving Repr

namespace OrderedMap

variable {α : Type}

/-- The map without entries. -/
def empty : OrderedMap α := ⟨[]⟩

/-- The empty map is written `∅`. -/
instance : EmptyCollection (OrderedMap α) := ⟨empty⟩

/-- The empty map stands in for one that is not there. -/
instance : Inhabited (OrderedMap α) := ⟨empty⟩

/-- The keys of `m` in order. -/
def keys (m : OrderedMap α) : List Text := m.entries.map Prod.fst

/-- No key of `m` occurs twice. -/
def UniqueKeys (m : OrderedMap α) : Prop := m.keys.Nodup

/-- Whether `m.UniqueKeys` holds is decided by comparing the keys. -/
instance (m : OrderedMap α) : Decidable m.UniqueKeys := inferInstanceAs (Decidable m.keys.Nodup)

/-- The number of entries of `m`. -/
def size (m : OrderedMap α) : Nat := m.entries.length

/-- Whether `m` has no entries. -/
def isEmpty (m : OrderedMap α) : Bool := m.entries.isEmpty

/-- The value stored under `key`. -/
def find? (m : OrderedMap α) (key : Text) : Option α := m.entries.lookup key

/-- A key that is not in a map. -/
structure NoEntry where
  /-- The key. -/
  key : Text
  deriving DecidableEq, Repr

/-- The wording of a `NoEntry`. -/
def NoEntry.message (e : NoEntry) : Text := "no entry '" ++ e.key ++ "' in value map"

/-- The value stored under `key`, which has to be present. -/
def get (m : OrderedMap α) (key : Text) : Except NoEntry α :=
  match m.find? key with
  | some v => .ok v
  | none => .error ⟨key⟩

/-- Whether `key` is present. -/
def contains (m : OrderedMap α) (key : Text) : Bool := (m.find? key).isSome

/-- The position of `key`. -/
def indexOf? (m : OrderedMap α) (key : Text) : Option Nat := m.entries.findIdx? fun entry => entry.1 = key

/-- The entry at `index`. -/
def entryAt? (m : OrderedMap α) (index : Nat) : Option (Text × α) := m.entries[index]?

/-- Stores `value` in a list of entries: in place where `key` is present, else at the end. -/
def setEntry (key : Text) (value : α) : List (Text × α) → List (Text × α)
  | [] => [(key, value)]
  | (other, old) :: rest =>
    if other = key then (other, value) :: rest else (other, old) :: setEntry key value rest

/-- Stores `value`: in place where `key` is present, else at the end. -/
def set (m : OrderedMap α) (key : Text) (value : α) : OrderedMap α := ⟨setEntry key value m.entries⟩

/-- Stores `value` under `key` only if `key` is present. -/
def replace (m : OrderedMap α) (key : Text) (value : α) : OrderedMap α :=
  if m.contains key then m.set key value else m

/-- Overwrites the value at `index` and keeps the key; nothing changes beyond the end. -/
def setAt (m : OrderedMap α) (index : Nat) (value : α) : OrderedMap α :=
  ⟨m.entries.modify index fun entry => (entry.1, value)⟩

/-- Removes `key`. -/
def erase (m : OrderedMap α) (key : Text) : OrderedMap α :=
  ⟨m.entries.eraseP fun entry => entry.1 = key⟩

/-- Removes `key`, and tells whether it was there. -/
def remove (m : OrderedMap α) (key : Text) : Bool × OrderedMap α :=
  match m.indexOf? key with
  | some index => (true, ⟨m.entries.eraseIdx index⟩)
  | none => (false, m)

/-- Stores `entries` in `m` one after another. -/
def overlayEntries (m : OrderedMap α) (entries : List (Text × α)) : OrderedMap α :=
  entries.foldl (fun m entry => m.set entry.1 entry.2) m

/-- The map built by storing `entries` in the empty one: a repeated key keeps its first position and takes its last
value. -/
def ofList (entries : List (Text × α)) : OrderedMap α := empty.overlayEntries entries

/-- The map `m` with the entries of `top` laid over it. -/
def overlay (m top : OrderedMap α) : OrderedMap α := m.overlayEntries top.entries

/-! ## Look-up after a store -/

/-- The empty map finds nothing: `(∅ : OrderedMap α).find? key = none`. -/
@[simp] theorem find?_empty (key : Text) : (∅ : OrderedMap α).find? key = none := rfl

/-- Storing changes the look-up of the stored key only:
`(setEntry key value entries).lookup other = if other = key then some value else entries.lookup other`. -/
theorem lookup_setEntry (key other : Text) (value : α) (entries : List (Text × α)) :
    (setEntry key value entries).lookup other =
      if other = key then some value else entries.lookup other := by
  induction entries with
  | nil =>
    by_cases h : other = key
    · simp [setEntry, h]
    · simp [setEntry, List.lookup_cons, h, beq_eq_false_iff_ne.2 h]
  | cons entry rest ih =>
    obtain ⟨head, old⟩ := entry
    by_cases ho : other = head
    · subst ho
      by_cases hk : other = key
      · simp [setEntry, hk]
      · simp [setEntry, hk]
    · have miss := beq_eq_false_iff_ne.2 ho
      by_cases hk : head = key
      · subst hk
        simp [setEntry, List.lookup_cons, ho, miss]
      · simp [setEntry, hk, List.lookup_cons, miss, ih]

/-- Storing changes the look-up of the stored key only:
`(m.set key value).find? other = if other = key then some value else m.find? other`. -/
@[simp] theorem find?_set (m : OrderedMap α) (key other : Text) (value : α) :
    (m.set key value).find? other = if other = key then some value else m.find? other :=
  lookup_setEntry key other value m.entries

/-! ## Look-up among distinct keys -/

/-- A value that is found is that of an entry: `(key, value) ∈ m.entries`. -/
theorem mem_of_find? {m : OrderedMap α} {key : Text} {value : α} (found : m.find? key = some value) :
    (key, value) ∈ m.entries := by
  obtain ⟨before, after, split, -⟩ := List.lookup_eq_some_iff.1 found
  rw [split]
  exact List.mem_append_right _ List.mem_cons_self

/-- Among distinct keys, exactly the entry of a key is found under it:
`m.find? key = some value ↔ (key, value) ∈ m.entries`. -/
theorem find?_eq_some_iff {m : OrderedMap α} (unique : m.UniqueKeys) {key : Text} {value : α} :
    m.find? key = some value ↔ (key, value) ∈ m.entries := by
  refine ⟨mem_of_find?, fun mem => ?_⟩
  obtain ⟨before, after, split⟩ := List.append_of_mem mem
  refine List.lookup_eq_some_iff.2 ⟨before, after, split, fun entry earlier => ?_⟩
  rw [UniqueKeys, keys, split, List.map_append, List.map_cons] at unique
  have other := (List.nodup_append.1 unique).2.2 _ (List.mem_map_of_mem earlier) _ List.mem_cons_self
  exact bne_iff_ne.2 (Ne.symm other)

/-- A key is not found exactly if it is none of the keys: `m.find? key = none ↔ key ∉ m.keys`. -/
theorem find?_eq_none_iff {m : OrderedMap α} {key : Text} : m.find? key = none ↔ key ∉ m.keys := by
  rw [find?, List.lookup_eq_none_iff, keys, List.mem_map]
  constructor
  · rintro missed ⟨entry, mem, rfl⟩
    exact bne_iff_ne.1 (missed entry mem) rfl
  · intro absent entry mem
    exact bne_iff_ne.2 fun same => absent ⟨entry, mem, same.symm⟩

/-- A map contains its keys: `m.contains key ↔ key ∈ m.keys`. -/
theorem contains_iff {m : OrderedMap α} {key : Text} : m.contains key = true ↔ key ∈ m.keys := by
  rw [contains, Option.isSome_iff_ne_none, ne_eq, find?_eq_none_iff, Decidable.not_not]

/-- The position of a key is its only one among distinct keys:
`m.indexOf? key = some index ↔ m.keys[index]? = some key`. -/
theorem indexOf?_eq_some_iff {m : OrderedMap α} (unique : m.UniqueKeys) {key : Text} {index : Nat} :
    m.indexOf? key = some index ↔ m.keys[index]? = some key := by
  obtain ⟨entries⟩ := m
  simp only [indexOf?, keys, UniqueKeys] at unique ⊢
  induction entries generalizing index with
  | nil => simp
  | cons entry rest ih =>
    rw [List.map_cons, List.nodup_cons] at unique
    rw [List.findIdx?_cons, List.map_cons]
    by_cases same : entry.1 = key
    · subst same
      cases index with
      | zero => simp
      | succ index =>
        have absent : (rest.map Prod.fst)[index]? ≠ some entry.1 :=
          fun found => unique.1 (List.mem_of_getElem? found)
        simpa using absent
    · -- The first key is another one, so the index found in the rest is shifted by one.
      cases index with
      | zero => simp [same]
      | succ index => simpa [same] using ih unique.2

/-- A key has no position exactly if it is no key: `m.indexOf? key = none ↔ key ∉ m.keys`. -/
theorem indexOf?_eq_none_iff {m : OrderedMap α} {key : Text} : m.indexOf? key = none ↔ key ∉ m.keys := by
  rw [indexOf?, List.findIdx?_eq_none_iff, keys, List.mem_map]
  constructor
  · rintro missed ⟨entry, mem, same⟩
    exact of_decide_eq_false (missed entry mem) same
  · intro absent entry mem
    exact decide_eq_false fun same => absent ⟨entry, mem, same⟩

/-! ## Keys after an operation -/

/-- `setEntry` under a present key keeps the keys; under a new one it appends the key. -/
theorem keys_setEntry (key : Text) (value : α) (entries : List (Text × α)) :
    (setEntry key value entries).map Prod.fst =
      if key ∈ entries.map Prod.fst then entries.map Prod.fst else entries.map Prod.fst ++ [key] := by
  induction entries with
  | nil => simp [setEntry]
  | cons entry rest ih =>
    obtain ⟨head, old⟩ := entry
    by_cases h : head = key
    · simp [setEntry, h]
    · by_cases mem : key ∈ rest.map Prod.fst
      · rw [if_pos mem] at ih
        simp only [setEntry, if_neg h, List.map_cons, ih]
        rw [if_pos (List.mem_cons_of_mem _ mem)]
      · rw [if_neg mem] at ih
        simp only [setEntry, if_neg h, List.map_cons, ih]
        rw [if_neg (by simpa [Ne.symm h] using mem)]
        rfl

/-- Storing under a present key keeps the keys; storing under a new one appends it:
`(m.set key value).keys = if key ∈ m.keys then m.keys else m.keys ++ [key]`. -/
theorem keys_set (m : OrderedMap α) (key : Text) (value : α) :
    (m.set key value).keys = if key ∈ m.keys then m.keys else m.keys ++ [key] :=
  keys_setEntry key value m.entries

/-- Overwriting at a position keeps the keys: `(m.setAt index value).keys = m.keys`. -/
@[simp] theorem keys_setAt (m : OrderedMap α) (index : Nat) (value : α) :
    (m.setAt index value).keys = m.keys := by
  obtain ⟨entries⟩ := m
  simp only [setAt, keys]
  induction entries generalizing index with
  | nil => simp
  | cons entry rest ih =>
    cases index with
    | zero => simp
    | succ index => simp [ih]

/-- Storing under a new key appends the entry: `setEntry key value entries = entries ++ [(key, value)]`. -/
theorem setEntry_of_not_mem {key : Text} {entries : List (Text × α)}
    (new : key ∉ entries.map Prod.fst) (value : α) :
    setEntry key value entries = entries ++ [(key, value)] := by
  induction entries with
  | nil => rfl
  | cons entry rest ih =>
    obtain ⟨head, old⟩ := entry
    rw [List.map_cons, List.mem_cons, not_or] at new
    rw [setEntry, if_neg (Ne.symm new.1), ih new.2, List.cons_append]

/-- Overwriting right behind some entries changes the first of the others:
`(⟨first ++ (key, old) :: rest⟩ : OrderedMap α).setAt first.length new = ⟨first ++ (key, new) :: rest⟩`. -/
theorem setAt_append_cons (first rest : List (Text × α)) (key : Text) (old new : α) :
    (⟨first ++ (key, old) :: rest⟩ : OrderedMap α).setAt first.length new =
      ⟨first ++ (key, new) :: rest⟩ := by
  have behind := List.modifyTailIdx_add (List.modifyHead fun entry => (entry.1, new)) 0 first
    ((key, old) :: rest)
  rw [setAt, List.modify, ← Nat.add_zero first.length, behind]
  rfl

/-- Overwriting at the position of a key is storing under the key: `m.setAt index value = m.set key value`. -/
theorem setAt_eq_set {m : OrderedMap α} (unique : m.UniqueKeys) {index : Nat} {key : Text}
    (place : m.keys[index]? = some key) (value : α) : m.setAt index value = m.set key value := by
  obtain ⟨entries⟩ := m
  simp only [setAt, set, mk.injEq, keys, UniqueKeys] at unique place ⊢
  induction entries generalizing index with
  | nil => cases place
  | cons entry rest ih =>
    obtain ⟨head, old⟩ := entry
    rw [List.map_cons, List.nodup_cons] at unique
    cases index with
    | zero =>
      cases place
      rw [setEntry, if_pos rfl]
      rfl
    | succ index =>
      have place : (rest.map Prod.fst)[index]? = some key := place
      -- Keys are unique, so the key at a later index is not the head's.
      have other : head ≠ key := fun same => unique.1 (same ▸ List.mem_of_getElem? place)
      rw [setEntry, if_neg other, ← ih unique.2 place]
      rfl

/-- Overwriting beyond the end changes nothing: `m.setAt index value = m`. -/
theorem setAt_eq_self {m : OrderedMap α} {index : Nat} (beyond : m.keys[index]? = none) (value : α) :
    m.setAt index value = m := by
  rw [List.getElem?_eq_none_iff, keys, List.length_map] at beyond
  rw [setAt, List.modify_eq_self beyond]

/-! ## Storing many entries -/

/-- Laying no entries over a map changes nothing: `m.overlayEntries [] = m`. -/
@[simp] theorem overlayEntries_nil (m : OrderedMap α) : m.overlayEntries [] = m := rfl

/-- Laying entries over a map stores them one after another:
`m.overlayEntries (entry :: rest) = (m.set entry.1 entry.2).overlayEntries rest`. -/
@[simp] theorem overlayEntries_cons (m : OrderedMap α) (entry : Text × α) (rest : List (Text × α)) :
    m.overlayEntries (entry :: rest) = (m.set entry.1 entry.2).overlayEntries rest := rfl

/-- Storing many entries appends their new keys, each at its first occurrence:
`(m.overlayEntries entries).keys = m.keys ++ ((entries.map Prod.fst).removeAll m.keys).eraseDups`. -/
theorem keys_overlayEntries (m : OrderedMap α) (entries : List (Text × α)) :
    (m.overlayEntries entries).keys =
      m.keys ++ ((entries.map Prod.fst).removeAll m.keys).eraseDups := by
  induction entries generalizing m with
  | nil => simp [List.removeAll]
  | cons entry rest ih =>
    obtain ⟨key, value⟩ := entry
    rw [overlayEntries_cons, ih, keys_set, List.map_cons]
    by_cases mem : key ∈ m.keys
    · have first : (key :: rest.map Prod.fst).removeAll m.keys = (rest.map Prod.fst).removeAll m.keys := by
        simp [List.removeAll, mem]
      rw [if_pos mem, first]
    · have first : (key :: rest.map Prod.fst).removeAll m.keys =
          key :: (rest.map Prod.fst).removeAll m.keys := by
        simp [List.removeAll, mem]
      -- A new key is appended, and from then on it is among the keys that are removed from the rest.
      have later : (rest.map Prod.fst).removeAll (m.keys ++ [key]) =
          ((rest.map Prod.fst).removeAll m.keys).filter fun other => !other == key := by
        rw [List.removeAll, List.removeAll, List.filter_filter]
        refine List.filter_congr fun other _ => ?_
        by_cases same : other = key
        · simp [same]
        · simp [same, beq_eq_false_iff_ne.2 same]
      rw [if_neg mem, first, later, List.eraseDups_cons, List.append_assoc, List.singleton_append]

/-- The keys of a map built from a list are those of the list, each at its first occurrence:
`(ofList entries).keys = (entries.map Prod.fst).eraseDups`. -/
theorem keys_ofList (entries : List (Text × α)) :
    (ofList entries).keys = (entries.map Prod.fst).eraseDups := by
  have all : (entries.map Prod.fst).removeAll (∅ : OrderedMap α).keys = entries.map Prod.fst :=
    List.filter_eq_self.2 fun _ _ => rfl
  rw [ofList, keys_overlayEntries]
  exact congrArg List.eraseDups all

/-- After many entries that agree on a key, their value is found under it:
`(m.overlayEntries entries).find? key = some value`. -/
theorem find?_overlayEntries {m : OrderedMap α} {entries : List (Text × α)} {key : Text} {value : α}
    (agree : ∀ entry ∈ entries, entry.1 = key → entry.2 = value)
    (known : key ∈ entries.map Prod.fst ∨ m.find? key = some value) :
    (m.overlayEntries entries).find? key = some value := by
  induction entries generalizing m with
  | nil => exact known.resolve_left List.not_mem_nil
  | cons entry rest ih =>
    rw [overlayEntries_cons]
    refine ih (fun other mem => agree other (List.mem_cons_of_mem _ mem)) ?_
    rw [find?_set]
    by_cases same : key = entry.1
    · rw [if_pos same, agree entry List.mem_cons_self same.symm]
      exact .inr rfl
    · rw [if_neg same]
      rcases known with known | before
      · exact .inl ((List.mem_cons.1 known).resolve_left same)
      · exact .inr before

/-- After many entries, the last of them under a key is found, and where there is none what was found before:
`(m.overlayEntries entries).find? key = (entries.reverse.lookup key).or (m.find? key)`. -/
theorem find?_overlayEntries_last (m : OrderedMap α) (entries : List (Text × α)) (key : Text) :
    (m.overlayEntries entries).find? key = (entries.reverse.lookup key).or (m.find? key) := by
  induction entries generalizing m with
  | nil => rfl
  | cons entry rest ih =>
    rw [overlayEntries_cons, ih, find?_set, List.reverse_cons, List.lookup_append, Option.or_assoc]
    by_cases same : key = entry.1
    · rw [if_pos same, List.lookup_cons, beq_iff_eq.2 same]
      rfl
    · rw [if_neg same, List.lookup_cons, beq_eq_false_iff_ne.2 same]
      rfl

/-- In a map built from a list, the last entry under a key is found:
`(ofList entries).find? key = entries.reverse.lookup key`. -/
theorem find?_ofList (entries : List (Text × α)) (key : Text) :
    (ofList entries).find? key = entries.reverse.lookup key := by
  rw [ofList, find?_overlayEntries_last]
  exact Option.or_none

/-- Among distinct keys the order of the entries does not matter to a look-up:
`m.entries.reverse.lookup key = m.find? key`. -/
theorem lookup_reverse {m : OrderedMap α} (unique : m.UniqueKeys) (key : Text) :
    m.entries.reverse.lookup key = m.find? key := by
  have uniqueReverse : (⟨m.entries.reverse⟩ : OrderedMap α).UniqueKeys := by
    rw [UniqueKeys, keys, List.map_reverse]
    exact List.pairwise_reverse.2 (unique.imp Ne.symm)
  refine Option.ext fun value => ?_
  rw [find?_eq_some_iff unique, ← List.mem_reverse]
  exact find?_eq_some_iff uniqueReverse

/-- Under every key of the map on top its value is found, and under all others that of the map below:
`(m.overlay top).find? key = (top.find? key).or (m.find? key)`. -/
theorem find?_overlay (m : OrderedMap α) {top : OrderedMap α} (unique : top.UniqueKeys) (key : Text) :
    (m.overlay top).find? key = (top.find? key).or (m.find? key) := by
  rw [overlay, find?_overlayEntries_last, lookup_reverse unique]

/-- Storing many entries with distinct new keys appends them: `m.overlayEntries entries = ⟨m.entries ++ entries⟩`. -/
theorem overlayEntries_of_nodup {m : OrderedMap α} {entries : List (Text × α)}
    (distinct : ((m.entries ++ entries).map Prod.fst).Nodup) :
    m.overlayEntries entries = ⟨m.entries ++ entries⟩ := by
  induction entries generalizing m with
  | nil => rw [overlayEntries_nil, List.append_nil]
  | cons entry rest ih =>
    have new : entry.1 ∉ m.entries.map Prod.fst := by
      rw [List.map_append, List.map_cons] at distinct
      intro mem
      exact (List.nodup_append.1 distinct).2.2 _ mem _ List.mem_cons_self rfl
    have stored : m.set entry.1 entry.2 = ⟨m.entries ++ [entry]⟩ := by
      rw [set, setEntry_of_not_mem new]
    rw [List.append_cons] at distinct ⊢
    rw [overlayEntries_cons, stored, ih distinct]

/-- A map built from a list with distinct keys has its entries: `ofList entries = ⟨entries⟩`. -/
theorem ofList_of_nodup {entries : List (Text × α)} (distinct : (entries.map Prod.fst).Nodup) :
    ofList entries = ⟨entries⟩ := by
  rw [ofList, overlayEntries_of_nodup]
  · rfl
  · exact distinct

/-- The empty map has unique keys: `(∅ : OrderedMap α).UniqueKeys`. -/
theorem uniqueKeys_empty : (∅ : OrderedMap α).UniqueKeys := .nil

/-- Storing keeps the keys distinct: `(m.set key value).UniqueKeys`. -/
theorem UniqueKeys.set {m : OrderedMap α} (h : m.UniqueKeys) (key : Text) (value : α) :
    (m.set key value).UniqueKeys := by
  rw [UniqueKeys, keys_set]
  split
  · exact h
  · next new =>
    refine List.nodup_append.2 ⟨h, by simp, ?_⟩
    intro other mem last single same
    rw [List.mem_singleton] at single
    exact new (single ▸ same ▸ mem)

/-- Overwriting at a position keeps the keys distinct: `(m.setAt index value).UniqueKeys`. -/
theorem UniqueKeys.setAt {m : OrderedMap α} (h : m.UniqueKeys) (index : Nat) (value : α) :
    (m.setAt index value).UniqueKeys := by
  rw [UniqueKeys, keys_setAt]
  exact h

/-- Removing keeps the keys distinct: `(m.erase key).UniqueKeys`. -/
theorem UniqueKeys.erase {m : OrderedMap α} (h : m.UniqueKeys) (key : Text) :
    (m.erase key).UniqueKeys :=
  h.sublist (List.eraseP_sublist.map Prod.fst)

/-- Storing the entries of a list keeps the keys distinct: `(m.overlayEntries entries).UniqueKeys`. -/
theorem UniqueKeys.overlayEntries {m : OrderedMap α} (h : m.UniqueKeys) (entries : List (Text × α)) :
    (m.overlayEntries entries).UniqueKeys := by
  induction entries generalizing m with
  | nil => exact h
  | cons entry rest ih => exact ih (h.set entry.1 entry.2)

/-- A map built from a list has distinct keys, whatever the list: `(ofList entries).UniqueKeys`. -/
theorem uniqueKeys_ofList (entries : List (Text × α)) : (ofList entries).UniqueKeys :=
  uniqueKeys_empty.overlayEntries entries

/-! ## Removing a key -/

/-- Removing a key removes its entry alone and keeps the order of the others:
`(m.erase key).entries = m.entries.filter fun entry => entry.1 ≠ key`. -/
theorem entries_erase {m : OrderedMap α} (unique : m.UniqueKeys) (key : Text) :
    (m.erase key).entries = m.entries.filter fun entry => entry.1 ≠ key := by
  obtain ⟨entries⟩ := m
  simp only [erase, keys, UniqueKeys] at unique ⊢
  induction entries with
  | nil => rfl
  | cons entry rest ih =>
    rw [List.map_cons, List.nodup_cons] at unique
    by_cases same : entry.1 = key
    · -- No later entry has the key, so the filter keeps all of them.
      have others : ∀ other ∈ rest, decide (other.1 ≠ key) = true := by
        intro other mem
        exact decide_eq_true fun again => unique.1 (same ▸ again ▸ List.mem_map_of_mem mem)
      rw [List.eraseP_cons_of_pos (by simpa using same), List.filter_cons_of_neg (by simpa using same),
        List.filter_eq_self.2 others]
    · rw [List.eraseP_cons_of_neg (by simpa using same), List.filter_cons_of_pos (by simpa using same),
        ih unique.2]

/-- Removing a key keeps the order of the other keys:
`(m.erase key).keys = m.keys.filter fun other => other ≠ key`. -/
theorem keys_erase {m : OrderedMap α} (unique : m.UniqueKeys) (key : Text) :
    (m.erase key).keys = m.keys.filter fun other => other ≠ key := by
  rw [keys, entries_erase unique, keys, List.filter_map]
  rfl

/-- Removing a key changes its look-up only:
`(m.erase key).find? other = if other = key then none else m.find? other`. -/
theorem find?_erase {m : OrderedMap α} (unique : m.UniqueKeys) (key other : Text) :
    (m.erase key).find? other = if other = key then none else m.find? other := by
  refine Option.ext fun value => ?_
  rw [find?_eq_some_iff (unique.erase key), entries_erase unique, List.mem_filter]
  by_cases same : other = key
  · simp [same]
  · simp [same, find?_eq_some_iff unique]

/-- A removal tells whether the key was there: `m.remove key = (m.contains key, m.erase key)`. -/
theorem remove_eq (m : OrderedMap α) (key : Text) : m.remove key = (m.contains key, m.erase key) := by
  have there : (m.indexOf? key).isSome = m.contains key := by
    rw [Bool.eq_iff_iff, contains_iff, Option.isSome_iff_ne_none, ne_eq, indexOf?_eq_none_iff,
      Decidable.not_not]
  rw [← there, remove, erase, List.eraseP_eq_eraseIdx, ← indexOf?]
  cases m.indexOf? key with
  | none => rfl
  | some index => rfl

end OrderedMap

end OpCycle
