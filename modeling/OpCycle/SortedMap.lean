import OpCycle.Text.Basic

/-! # Maps in key order
A map from texts whose entries are kept in strictly increasing byte order of their keys, so that two maps
with the same look-ups are the same list of entries. -/

namespace OpCycle

/-- A map from texts, as its entries by increasing key. -/
structure SortedMap (α : Type) where
  /-- The entries by increasing key. -/
  entries : List (Text × α)
  /-- Each key is below all later ones. -/
  sorted : entries.Pairwise fun left right => left.1 < right.1

namespace SortedMap

variable {α : Type}

/-- The map without entries. -/
def empty : SortedMap α := ⟨[], .nil⟩

/-- The empty map is written `∅`. -/
instance : EmptyCollection (SortedMap α) := ⟨empty⟩

/-- The empty map stands in for one that is not there. -/
instance : Inhabited (SortedMap α) := ⟨empty⟩

/-- The keys of `m` by increasing byte order. -/
def keys (m : SortedMap α) : List Text := m.entries.map Prod.fst

/-- The value stored under `key`. -/
def find? (m : SortedMap α) (key : Text) : Option α := m.entries.lookup key

/-- Stores `value` among sorted entries: in place where `key` is present, else before the first larger key. -/
def insertEntry (key : Text) (value : α) : List (Text × α) → List (Text × α)
  | [] => [(key, value)]
  | (other, old) :: rest =>
    if key = other then (key, value) :: rest
    else if key < other then (key, value) :: (other, old) :: rest
    else (other, old) :: insertEntry key value rest

/-- The keys after an insertion are the inserted one and those from before:
`entry = (key, value) ∨ entry ∈ entries`. -/
theorem mem_insertEntry {key : Text} {value : α} {entry : Text × α} {entries : List (Text × α)}
    (h : entry ∈ insertEntry key value entries) : entry = (key, value) ∨ entry ∈ entries := by
  induction entries with
  | nil => simpa [insertEntry] using h
  | cons head rest ih =>
    obtain ⟨other, old⟩ := head
    simp only [insertEntry] at h
    split at h
    · rcases List.mem_cons.1 h with h | h
      · exact .inl h
      · exact .inr (List.mem_cons_of_mem _ h)
    · split at h
      · exact List.mem_cons.1 h
      · rcases List.mem_cons.1 h with h | h
        · exact .inr (h ▸ List.mem_cons_self)
        · exact (ih h).imp id (List.mem_cons_of_mem _)

/-- An insertion keeps the entries sorted:
`(insertEntry key value entries).Pairwise fun left right => left.1 < right.1`. -/
theorem sorted_insertEntry (key : Text) (value : α) {entries : List (Text × α)}
    (h : entries.Pairwise fun left right => left.1 < right.1) :
    (insertEntry key value entries).Pairwise fun left right => left.1 < right.1 := by
  induction entries with
  | nil => simp [insertEntry]
  | cons head rest ih =>
    obtain ⟨other, old⟩ := head
    obtain ⟨above, tail⟩ := List.pairwise_cons.1 h
    simp only [insertEntry]
    split
    · next equal => exact List.pairwise_cons.2 ⟨fun entry mem => equal ▸ above entry mem, tail⟩
    · next different =>
      split
      · next less =>
        refine List.pairwise_cons.2 ⟨fun entry mem => ?_, h⟩
        rcases List.mem_cons.1 mem with rfl | mem
        · exact less
        · exact List.lt_trans less (above entry mem)
      · -- Neither equal nor less, so the other key stays in front; what follows it is old or the new entry.
        next notLess =>
        refine List.pairwise_cons.2 ⟨fun entry mem => ?_, ih tail⟩
        rcases mem_insertEntry mem with rfl | mem
        · rcases List.le_iff_lt_or_eq.1 (List.not_lt.1 notLess) with h | h
          · exact h
          · exact absurd h.symm different
        · exact above entry mem

/-- Stores `value` under `key`, in place of what is there. -/
def insert (m : SortedMap α) (key : Text) (value : α) : SortedMap α :=
  ⟨insertEntry key value m.entries, sorted_insertEntry key value m.sorted⟩

/-- Stores `entries` in `m` one after another. -/
def insertAll (m : SortedMap α) (entries : List (Text × α)) : SortedMap α :=
  entries.foldl (fun m entry => m.insert entry.1 entry.2) m

/-- The map built by storing `entries` in the empty one. -/
def ofList (entries : List (Text × α)) : SortedMap α := empty.insertAll entries

/-- The map `m` with the entries of `top` laid over it. -/
def overlay (m top : SortedMap α) : SortedMap α := m.insertAll top.entries

/-! ## Look-up after a store -/

/-- Storing changes the look-up of the stored key only:
`(m.insert key value).find? other = if other = key then some value else m.find? other`. -/
@[simp] theorem find?_insert (m : SortedMap α) (key other : Text) (value : α) :
    (m.insert key value).find? other = if other = key then some value else m.find? other := by
  obtain ⟨entries, sorted⟩ := m
  simp only [insert, find?]
  -- The order of the entries is not needed: insertion replaces the first entry for the key or comes before it.
  clear sorted
  induction entries with
  | nil =>
    by_cases h : other = key
    · simp [insertEntry, h]
    · simp [insertEntry, List.lookup_cons, h, beq_eq_false_iff_ne.2 h]
  | cons head rest ih =>
    obtain ⟨first, old⟩ := head
    by_cases ho : other = key
    · subst ho
      by_cases hk : other = first
      · simp [insertEntry, hk]
      · by_cases hl : other < first
        · simp [insertEntry, hk, hl]
        · simp [insertEntry, hk, hl, List.lookup_cons, beq_eq_false_iff_ne.2 hk, ih]
    · have miss := beq_eq_false_iff_ne.2 ho
      by_cases hk : key = first
      · subst hk
        simp [insertEntry, List.lookup_cons, ho, miss]
      · by_cases hl : key < first
        · simp [insertEntry, hk, hl, List.lookup_cons, ho, miss]
        · simp [insertEntry, hk, hl, List.lookup_cons, ho, ih]

/-- After storing entries the last of them under a key is found, and where there is none what was found before:
`(m.insertAll entries).find? key = (entries.reverse.lookup key).or (m.find? key)`. -/
theorem find?_insertAll_last (m : SortedMap α) (entries : List (Text × α)) (key : Text) :
    (m.insertAll entries).find? key = (entries.reverse.lookup key).or (m.find? key) := by
  induction entries generalizing m with
  | nil => rfl
  | cons entry rest ih =>
    have step : (m.insertAll (entry :: rest)).find? key =
        (rest.reverse.lookup key).or ((m.insert entry.1 entry.2).find? key) := ih _
    rw [step, find?_insert, List.reverse_cons, List.lookup_append, Option.or_assoc]
    by_cases same : key = entry.1
    · rw [if_pos same, List.lookup_cons, beq_iff_eq.2 same]
      rfl
    · rw [if_neg same, List.lookup_cons, beq_eq_false_iff_ne.2 same]
      rfl

/-- Storing two lists of entries in a row is storing their concatenation:
`m.insertAll (first ++ second) = (m.insertAll first).insertAll second`. -/
theorem insertAll_append (m : SortedMap α) (first second : List (Text × α)) :
    m.insertAll (first ++ second) = (m.insertAll first).insertAll second := List.foldl_append

/-- The keys are those under which something is found: `key ∈ m.keys ↔ ∃ value, m.find? key = some value`. -/
theorem mem_keys_iff {m : SortedMap α} {key : Text} : key ∈ m.keys ↔ ∃ value, m.find? key = some value := by
  have absent : m.find? key = none ↔ key ∉ m.keys := by
    rw [find?, List.lookup_eq_none_iff, keys, List.mem_map]
    constructor
    · rintro others ⟨entry, mem, rfl⟩
      exact bne_iff_ne.1 (others entry mem) rfl
    · intro missing entry mem
      exact bne_iff_ne.2 fun same => missing ⟨entry, mem, same.symm⟩
  rw [← Option.isSome_iff_exists, ← Decidable.not_iff_not, Option.not_isSome_iff_eq_none, absent]

/-- The keys are in strictly increasing order: `m.keys.Pairwise (· < ·)`. -/
theorem keys_sorted (m : SortedMap α) : m.keys.Pairwise (· < ·) := List.pairwise_map.2 m.sorted

/-- In a map built from a list, the last entry under a key is found:
`(ofList entries).find? key = entries.reverse.lookup key`. -/
theorem find?_ofList (entries : List (Text × α)) (key : Text) :
    (ofList entries).find? key = entries.reverse.lookup key := by
  rw [ofList, find?_insertAll_last]
  exact Option.or_none

/-- Among sorted entries the last one under a key is the only one:
`entries.reverse.lookup key = entries.lookup key`. -/
theorem lookup_reverse {entries : List (Text × α)}
    (sorted : entries.Pairwise fun left right => left.1 < right.1) (key : Text) :
    entries.reverse.lookup key = entries.lookup key := by
  induction entries with
  | nil => rfl
  | cons entry rest ih =>
    obtain ⟨above, tail⟩ := List.pairwise_cons.1 sorted
    rw [List.reverse_cons, List.lookup_append, ih tail, List.lookup_cons, List.lookup_cons]
    by_cases same : key = entry.1
    · -- Later keys are larger, so none of them is this one.
      have absent : rest.lookup key = none := by
        rw [List.lookup_eq_none_iff]
        intro later mem
        rw [bne_iff_ne, same]
        exact fun equal => List.lt_irrefl later.1 (equal ▸ above later mem)
      rw [absent, beq_iff_eq.2 same]
      rfl
    · rw [beq_eq_false_iff_ne.2 same]
      exact Option.or_none

/-- A map laid over another one decides about its keys:
`(m.overlay top).find? key = (top.find? key).or (m.find? key)`. -/
theorem find?_overlay (m top : SortedMap α) (key : Text) :
    (m.overlay top).find? key = (top.find? key).or (m.find? key) := by
  rw [overlay, find?_insertAll_last, lookup_reverse top.sorted, ← find?]

end SortedMap

end OpCycle
