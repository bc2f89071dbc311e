import OpCycle.Proofs.Plan.Fields
import OpCycle.Proofs.Plan.Interpretation

/-! # The views of a plan agree
A plan that compiles from raw fields with distinct keys tells the same story in all its views. Its names,
the keys of its skeleton and the keys of every cycle are the raw keys in order; the fixed and the bound
fields divide them; each slot points at the null entry of its own field; and the captures are those of the
raw texts.

* `slot_entry`, `one_of_three`: what slots and names tell.
* `Consistent`, `compile_consistent`: the views agree with the raw fields and with each other. -/

namespace OpCycle.Plan

/-- The texts among the `raw` fields, in order. -/
def rawTexts (raw : OrderedMap Value) : List Text :=
  raw.entries.filterMap fun entry =>
    match entry.2 with
    | .text s => some s
    | _ => none

/-- The views of `p` agree with the `raw` fields that it is made of, and with each other. -/
structure Consistent (p : Plan) (raw : OrderedMap Value) : Prop where
  /-- The names of the fields are the raw keys. -/
  names : p.names = raw.keys
  /-- So are the keys of the skeleton. -/
  skeleton_keys : p.views.skeleton.keys = raw.keys
  /-- So are the keys of every cycle. -/
  cycle_keys : ∀ cycle m, p.apply cycle = .ok m → m.keys = raw.keys
  /-- The statics stand in the order of the fields. -/
  statics_sublist : p.views.statics.keys.Sublist p.names
  /-- The dynamics stand in the order of the fields. -/
  dynamics_sublist : (p.dynamics.map Prod.fst).Sublist p.names
  /-- No name is both among the statics and among the dynamics. -/
  disjoint : p.views.statics.keys.Disjoint (p.dynamics.map Prod.fst)
  /-- Every name is among the statics or among the dynamics. -/
  covered : ∀ name ∈ p.names, name ∈ p.views.statics.keys ∨ name ∈ p.dynamics.map Prod.fst
  /-- The statics and the dynamics together are as many as the fields. -/
  size : p.views.statics.size + p.dynamics.length = p.size
  /-- A slot stands at the position of a field bound to its function, where the skeleton has the null
  entry of that field. -/
  slot : ∀ slot ∈ p.views.slots, ∃ name,
    p.fields[slot.index]? = some ⟨name, .bound slot.function⟩ ∧
      p.views.skeleton.entryAt? slot.index = some (name, .null)
  /-- Every bound field has its slot. -/
  slot_of_bound : ∀ index name function, p.fields[index]? = some ⟨name, .bound function⟩ →
    ⟨index, function⟩ ∈ p.views.slots
  /-- A fixed value stands in the skeleton as it stands among the raw fields. -/
  static : ∀ name v, p.views.statics.find? name = some v →
    p.views.skeleton.find? name = some v ∧ raw.find? name = some v
  /-- The names of the statics are those of the fixed fields. -/
  isFixed_iff : ∀ name, p.isFixed name ↔ name ∈ p.views.statics.keys
  /-- The names of the dynamics are those of the bound fields. -/
  isBound_iff : ∀ name, p.isBound name ↔ name ∈ p.dynamics.map Prod.fst
  /-- A name is fixed, bound or undefined, and only one of these. -/
  one_of_three : ∀ name,
    (p.isFixed name ∧ ¬ p.isBound name ∧ p.isDefined name) ∨
      (¬ p.isFixed name ∧ p.isBound name ∧ p.isDefined name) ∨
      (¬ p.isFixed name ∧ ¬ p.isBound name ∧ ¬ p.isDefined name)
  /-- There is a group of captures for each raw text, the captures that its classification finds. -/
  captures : ((rawTexts raw).mapM fun s => (Template.classify s p.op.bindings).map Template.captures) =
    .ok p.captures

/-! ## From raw fields -/

/-- A text that is fixed is fixed as it is written: `v = .text raw`. -/
theorem bindTemplate_fixed {b : Binder} {name raw : Text} {t : Template} {v : Value}
    (made : bindTemplate b name raw t = .ok (.fixed v)) : v = .text raw := by
  unfold bindTemplate at made
  split at made
  · obtain ⟨_, -, h⟩ := Spec.map_eq_ok made
    cases h
  · obtain ⟨_, -, h⟩ := Spec.map_eq_ok made
    cases h
  · cases made
    rfl

/-- A field that is made fixed has its raw value: `v = raw`. -/
theorem compileField_fixed {b : Binder} {name other : Text} {raw v : Value}
    {group : List (List Capture)} (made : compileField b name raw = .ok (⟨other, .fixed v⟩, group)) :
    v = raw := by
  unfold compileField at made
  split at made
  · obtain ⟨t, -, made⟩ := Outcome.bind_eq_ok.1 made
    obtain ⟨body, bound, made⟩ := Outcome.bind_eq_ok.1 made
    cases made
    exact bindTemplate_fixed (Outcome.mapError_eq_ok.1 bound)
  · cases made
    rfl

/-- The fixed fields among those that are made are raw entries: `(name, v) ∈ entries`. -/
theorem mem_of_compileFields_fixed {b : Binder} {entries : List (Text × Value)} {fields : List Field}
    {captures : List (List Capture)} (made : compileFields b entries = .ok (fields, captures))
    {name : Text} {v : Value} (mem : ⟨name, .fixed v⟩ ∈ fields) : (name, v) ∈ entries := by
  induction entries generalizing fields captures with
  | nil =>
    cases made
    exact absurd mem List.not_mem_nil
  | cons entry rest ih =>
    obtain ⟨key, raw⟩ := entry
    obtain ⟨f, group, others, groups, head, tail, rfl, -⟩ := compileFields_cons_eq_ok made
    rcases List.mem_cons.1 mem with rfl | mem
    · cases compileField_name head
      cases compileField_fixed head
      exact List.mem_cons_self
    · exact List.mem_cons_of_mem _ (ih tail mem)

/-- The captures of fields that are made are those of the raw texts:
`((rawTexts ⟨entries⟩).mapM fun s => (Template.classify s b.bindings).map Template.captures) = .ok captures`. -/
theorem compileFields_captures {b : Binder} {entries : List (Text × Value)} {fields : List Field}
    {captures : List (List Capture)} (made : compileFields b entries = .ok (fields, captures)) :
    ((rawTexts ⟨entries⟩).mapM fun s => (Template.classify s b.bindings).map Template.captures) =
      .ok captures := by
  induction entries generalizing fields captures with
  | nil =>
    cases made
    rfl
  | cons entry rest ih =>
    obtain ⟨name, raw⟩ := entry
    obtain ⟨f, group, others, groups, head, tail, rfl, rfl⟩ := compileFields_cons_eq_ok made
    -- A text adds the group of its template; any other value adds none, and is no raw text either.
    unfold compileField at head
    split at head
    · next s =>
      obtain ⟨t, classified, head⟩ := Outcome.bind_eq_ok.1 head
      obtain ⟨body, -, head⟩ := Outcome.bind_eq_ok.1 head
      cases head
      have first : rawTexts ⟨(name, .text s) :: rest⟩ = s :: rawTexts ⟨rest⟩ := rfl
      rw [first, List.mapM_cons, Outcome.mapError_eq_ok.1 classified, ih tail]
      rfl
    · next notText =>
      cases head
      have first : rawTexts ⟨(name, raw) :: rest⟩ = rawTexts ⟨rest⟩ := by
        cases raw with
        | text s => exact absurd rfl (notText s)
        | _ => rfl
      rw [first, ih tail, List.nil_append]

/-! ## Closed views -/

section Closed

variable {p : Plan} (closed : p.views = Views.closed p.fields)

include closed

/-- The dynamics are the bound fields with their functions: `p.dynamics = p.fields.filterMap Field.boundEntry?`. -/
theorem dynamics_eq : p.dynamics = p.fields.filterMap Field.boundEntry? := by
  rw [dynamics, closed]
  exact Slot.entries_ofFields [] p.fields

/-- The names of the statics are those of the fields that are not bound:
`p.views.statics.keys = (p.fields.filter fun f => !f.isBound).map Field.name`. -/
theorem statics_keys : p.views.statics.keys = (p.fields.filter fun f => !f.isBound).map Field.name := by
  rw [closed]
  exact Field.names_fixedEntry? p.fields

/-- The names of the dynamics are those of the fields that are bound:
`p.dynamics.map Prod.fst = (p.fields.filter Field.isBound).map Field.name`. -/
theorem dynamics_names : p.dynamics.map Prod.fst = (p.fields.filter Field.isBound).map Field.name := by
  rw [dynamics_eq closed, Field.names_boundEntry?]

/-- The keys of the skeleton are the names: `p.views.skeleton.keys = p.names`. -/
theorem skeleton_keys : p.views.skeleton.keys = p.names := by
  rw [closed]
  exact Field.map_placeholder_fst p.fields

/-- There are as many statics and dynamics as fields: `p.views.statics.size + p.dynamics.length = p.size`. -/
theorem size_eq : p.views.statics.size + p.dynamics.length = p.size := by
  have statics := congrArg List.length (statics_keys closed)
  have dynamics := congrArg List.length (dynamics_names closed)
  -- The statics and the dynamics are what a filter keeps of the fields and what it drops.
  have parts := List.length_eq_length_filter_add (l := p.fields) Field.isBound
  rw [List.length_map] at dynamics
  rw [OrderedMap.keys, List.length_map] at statics
  rw [List.length_map] at statics dynamics
  rw [OrderedMap.size, statics, dynamics, size, parts, Nat.add_comm]

/-- A slot points at the null entry of the bound field at its position: `∃ name, p.fields[slot.index]? = some ⟨name,
.bound slot.function⟩ ∧ p.views.skeleton.entryAt? slot.index = some (name, .null)`. -/
theorem slot_entry {slot : Slot} (mem : slot ∈ p.views.slots) :
    ∃ name, p.fields[slot.index]? = some ⟨name, .bound slot.function⟩ ∧
      p.views.skeleton.entryAt? slot.index = some (name, .null) := by
  rw [closed] at mem ⊢
  obtain ⟨index, name, place, found⟩ := Slot.mem_ofFields.1 mem
  rw [Nat.zero_add] at place
  refine ⟨name, place ▸ found, ?_⟩
  rw [OrderedMap.entryAt?, Views.closed, List.getElem?_map, place, found]
  rfl

/-- A bound field has its slot: `⟨index, function⟩ ∈ p.views.slots`. -/
theorem slot_mem {index : Nat} {name : Text} {function : CycleFunction}
    (found : p.fields[index]? = some ⟨name, .bound function⟩) : ⟨index, function⟩ ∈ p.views.slots := by
  rw [closed]
  exact Slot.mem_ofFields.2 ⟨index, name, (Nat.zero_add index).symm, found⟩

/-- An entry of the statics is a fixed field: `⟨name, .fixed v⟩ ∈ p.fields`. -/
theorem mem_of_static {name : Text} {v : Value} (found : p.views.statics.find? name = some v) :
    ⟨name, .fixed v⟩ ∈ p.fields := by
  have mem := OrderedMap.mem_of_find? found
  rw [closed] at mem
  obtain ⟨⟨name', body⟩, memField, entry⟩ := List.mem_filterMap.1 mem
  cases body with
  | fixed v' =>
    cases entry
    exact memField
  | bound function => cases entry

variable (distinct : p.names.Nodup)

include distinct

/-- The names of the fixed fields are those of the statics: `p.isFixed name ↔ name ∈ p.views.statics.keys`. -/
theorem isFixed_iff_mem_statics (name : Text) : p.isFixed name ↔ name ∈ p.views.statics.keys := by
  rw [isFixed_iff, statics_keys closed]
  simp only [field?_eq_some_iff distinct, List.mem_map, List.mem_filter]
  constructor
  · rintro ⟨v, mem, -⟩
    exact ⟨_, ⟨mem, rfl⟩, rfl⟩
  · rintro ⟨⟨name', body⟩, ⟨mem, fixed⟩, rfl⟩
    cases body with
    | fixed v => exact ⟨v, mem, trivial⟩
    | bound function => cases fixed

/-- The names of the bound fields are those of the dynamics: `p.isBound name ↔ name ∈ p.dynamics.map Prod.fst`. -/
theorem isBound_iff_mem_dynamics (name : Text) : p.isBound name ↔ name ∈ p.dynamics.map Prod.fst := by
  rw [isBound_iff, dynamics_names closed]
  simp only [field?_eq_some_iff distinct, List.mem_map, List.mem_filter]
  constructor
  · rintro ⟨function, mem, -⟩
    exact ⟨_, ⟨mem, rfl⟩, rfl⟩
  · rintro ⟨⟨name', body⟩, ⟨mem, bound⟩, rfl⟩
    cases body with
    | fixed v => cases bound
    | bound function => exact ⟨function, mem, trivial⟩

/-- The value of a static is its value in the skeleton: `p.views.skeleton.find? name = some v`. -/
theorem skeleton_of_static {name : Text} {v : Value} (found : p.views.statics.find? name = some v) :
    p.views.skeleton.find? name = some v := by
  have unique : p.views.skeleton.UniqueKeys := by
    rw [OrderedMap.UniqueKeys, skeleton_keys closed]
    exact distinct
  rw [OrderedMap.find?_eq_some_iff unique, closed]
  exact List.mem_map.2 ⟨_, mem_of_static closed found, rfl⟩

end Closed

/-- A name is that of a fixed field, of a bound field or of no field, and only one of these: `isFixed`, `isBound` and
not `isDefined`. -/
theorem one_of_three (p : Plan) (name : Text) :
    (p.isFixed name ∧ ¬ p.isBound name ∧ p.isDefined name) ∨
      (¬ p.isFixed name ∧ p.isBound name ∧ p.isDefined name) ∨
      (¬ p.isFixed name ∧ ¬ p.isBound name ∧ ¬ p.isDefined name) := by
  rw [isFixed_iff, isBound_iff, isDefined]
  obtain ⟨v, found⟩ | ⟨function, found⟩ | found := p.field?_cases name
  · rw [found]
    simp
  · rw [found]
    simp
  · rw [found]
    simp

/-- **The views of a plan are `Consistent`** with the preprocessed raw fields that it compiles from, whenever these
have `UniqueKeys`. -/
theorem compile_consistent {op : Op} {activity : Option Activity} {preprocessors : List Preprocessor}
    {catalog : Catalog} {raw : OrderedMap Value} {p : Plan} (body : op.fields = some raw)
    (unique : (preprocess preprocessors raw).UniqueKeys)
    (compiled : compile op activity preprocessors catalog = .ok p) :
    p.Consistent (preprocess preprocessors raw) := by
  have closed := views_eq_closed body unique compiled
  obtain ⟨raw', fields, captures, body', made, rfl⟩ := compile_eq_ok compiled
  cases body.symm.trans body'
  have names := compileFields_names made
  have distinct : (fields.map Field.name).Nodup := by
    rw [names]
    exact unique
  -- Each view is a filter of the field list, so every clause is a fact about that list.
  exact {
    names
    skeleton_keys := (skeleton_keys closed).trans names
    cycle_keys := fun cycle m run => (keys_of_apply closed run).trans names
    statics_sublist := by
      rw [statics_keys closed]
      exact List.filter_sublist.map _
    dynamics_sublist := by
      rw [dynamics_names closed]
      exact List.filter_sublist.map _
    disjoint := by
      intro name fixed bound
      rw [← isFixed_iff_mem_statics closed distinct] at fixed
      rw [← isBound_iff_mem_dynamics closed distinct] at bound
      rcases one_of_three _ name with ⟨-, free, -⟩ | ⟨free, -⟩ | ⟨free, -⟩
      · exact free bound
      · exact free fixed
      · exact free fixed
    covered := by
      intro name mem
      rw [← isFixed_iff_mem_statics closed distinct, ← isBound_iff_mem_dynamics closed distinct]
      rcases one_of_three _ name with ⟨fixed, -⟩ | ⟨-, bound, -⟩ | ⟨-, -, undefined⟩
      · exact .inl fixed
      · exact .inr bound
      · exact absurd (isDefined_iff.2 mem) undefined
    size := size_eq closed
    slot := fun slot => slot_entry closed
    slot_of_bound := fun index name function => slot_mem closed
    static := by
      intro name v found
      refine ⟨skeleton_of_static closed distinct found, ?_⟩
      rw [OrderedMap.find?_eq_some_iff unique]
      exact mem_of_compileFields_fixed made (mem_of_static closed found)
    isFixed_iff := isFixed_iff_mem_statics closed distinct
    isBound_iff := isBound_iff_mem_dynamics closed distinct
    one_of_three := one_of_three _
    captures := compileFields_captures made }

/-- The views of a plan with a number, a text with a capture, a lone bind point and a joined text. -/
theorem compile_consistent_sample :
    ∃ p, sampleOp.fields = some sampleFields ∧
      (preprocess [sampleChange] sampleFields).UniqueKeys ∧
      compile sampleOp none [sampleChange] Basics.catalog = .ok p ∧
      p.Consistent (preprocess [sampleChange] sampleFields) := by
  obtain ⟨p, compiled⟩ := sampleOp_compiles
  exact ⟨p, rfl, sampleFields_unique, compiled, compile_consistent rfl sampleFields_unique compiled⟩

end OpCycle.Plan
