import OpCycle.Plan.Basic
import OpCycle.Proofs.Outcome

/-! # Views of fields with distinct names
When the names of fields are distinct, their views have a closed form: the skeleton has one entry per
field in order, the fixed values among them are the statics, and the slot of a bound field is numbered
with the position of the field. Filling the slots then gives the values of the fields in order.

* `Views.closed`: the views in closed form.
* `Views.ofFields_eq_closed`: adding the fields one by one gives these views.
* `Plan.fillAll_slots`: filling the slots gives the entries at a cycle. -/

namespace OpCycle

/-- The entry of `f` in the skeleton: the value of a fixed field, and null for a bound one. -/
def Field.placeholder (f : Field) : Text × Value :=
  match f.body with
  | .fixed v => (f.name, v)
  | .bound _ => (f.name, .null)

/-- The entry of `f`, if it is fixed. -/
def Field.fixedEntry? (f : Field) : Option (Text × Value) :=
  match f.body with
  | .fixed v => some (f.name, v)
  | .bound _ => none

/-- The entry of `f` at `cycle`. -/
def Field.entryAt (cycle : Int64) (f : Field) : Except ValueFault (Text × Value) :=
  (f.apply cycle).map fun v => (f.name, v)

/-- The slots of fields, the first of which stands at `position`. -/
def Slot.ofFields (position : Nat) : List Field → List Slot
  | [] => []
  | ⟨_, .fixed _⟩ :: rest => ofFields (position + 1) rest
  | ⟨_, .bound function⟩ :: rest => ⟨position, function⟩ :: ofFields (position + 1) rest

/-- The views of `fields` in closed form: each view is a map over the fields. -/
def Views.closed (fields : List Field) : Views :=
  ⟨⟨fields.filterMap Field.fixedEntry?⟩, ⟨fields.map Field.placeholder⟩, Slot.ofFields 0 fields⟩

/-- A field keeps its name in the skeleton: `f.placeholder.1 = f.name`. -/
@[simp] theorem Field.placeholder_fst (f : Field) : f.placeholder.1 = f.name := by
  obtain ⟨name, body⟩ := f
  cases body <;> rfl

/-- The keys of the skeleton are the names: `(fields.map Field.placeholder).map Prod.fst = fields.map Field.name`. -/
@[simp] theorem Field.map_placeholder_fst (fields : List Field) :
    (fields.map Field.placeholder).map Prod.fst = fields.map Field.name := by
  rw [List.map_map]
  exact List.map_congr_left fun f _ => f.placeholder_fst

/-- The name of a fixed entry is that of its field: `key ∈ fields.map Field.name`. -/
theorem Field.mem_names_of_fixedEntry? {fields : List Field} {key : Text}
    (h : key ∈ (fields.filterMap Field.fixedEntry?).map Prod.fst) : key ∈ fields.map Field.name := by
  obtain ⟨entry, mem, rfl⟩ := List.mem_map.1 h
  obtain ⟨⟨name, body⟩, memField, he⟩ := List.mem_filterMap.1 mem
  cases body with
  | fixed v =>
    cases he
    exact List.mem_map.2 ⟨_, memField, rfl⟩
  | bound function => cases he

/-- The slots of two lists of fields in a row: `Slot.ofFields position (first ++ second) = Slot.ofFields position
first ++ Slot.ofFields (position + first.length) second`. -/
theorem Slot.ofFields_append (position : Nat) (first second : List Field) :
    Slot.ofFields position (first ++ second) =
      Slot.ofFields position first ++ Slot.ofFields (position + first.length) second := by
  induction first generalizing position with
  | nil => rfl
  | cons f rest ih =>
    have shift : position + 1 + rest.length = position + (f :: rest).length := by
      rw [List.length_cons]
      omega
    obtain ⟨name, body⟩ := f
    cases body with
    | fixed v => rw [List.cons_append, ofFields, ofFields, ih, shift]
    | bound function => rw [List.cons_append, ofFields, ofFields, ih, shift, List.cons_append]

/-! ## Adding fields one after another -/

/-- Adding a field with a new name to closed views gives the closed views with that field at the end:
`(closed fields).add f = closed (fields ++ [f])`. -/
theorem Views.add_closed {fields : List Field} {f : Field} (new : f.name ∉ fields.map Field.name) :
    (closed fields).add f = closed (fields ++ [f]) := by
  obtain ⟨name, body⟩ := f
  have newPlace : name ∉ (fields.map Field.placeholder).map Prod.fst := by
    rw [Field.map_placeholder_fst]
    exact new
  have newStatic : name ∉ (fields.filterMap Field.fixedEntry?).map Prod.fst :=
    fun h => new (Field.mem_names_of_fixedEntry? h)
  cases body with
  | fixed v =>
    simp only [add, closed, OrderedMap.set, OrderedMap.setEntry_of_not_mem newPlace,
      OrderedMap.setEntry_of_not_mem newStatic, Slot.ofFields_append, List.map_append,
      List.filterMap_append]
    simp [Field.placeholder, Field.fixedEntry?, Slot.ofFields]
  | bound function =>
    simp only [add, closed, OrderedMap.set, OrderedMap.setEntry_of_not_mem newPlace,
      Slot.ofFields_append, List.map_append, List.filterMap_append]
    simp [Field.placeholder, Field.fixedEntry?, Slot.ofFields, OrderedMap.size]

/-- Adding fields with distinct new names to closed views keeps the views closed:
`second.foldl add (closed first) = closed (first ++ second)`. -/
theorem Views.foldl_add_closed {first second : List Field}
    (distinct : ((first ++ second).map Field.name).Nodup) :
    second.foldl add (closed first) = closed (first ++ second) := by
  induction second generalizing first with
  | nil => rw [List.foldl_nil, List.append_nil]
  | cons f rest ih =>
    have new : f.name ∉ first.map Field.name := by
      rw [List.map_append, List.map_cons] at distinct
      intro mem
      exact (List.nodup_append.1 distinct).2.2 _ mem _ List.mem_cons_self rfl
    rw [List.append_cons] at distinct ⊢
    rw [List.foldl_cons, add_closed new, ih distinct]

/-- The views of fields with distinct names are closed: `ofFields fields = closed fields`. -/
theorem Views.ofFields_eq_closed {fields : List Field} (distinct : (fields.map Field.name).Nodup) :
    ofFields fields = closed fields :=
  @foldl_add_closed [] fields distinct

/-! ## What the views hold -/

/-- The name and the function of `f`, if it is bound. -/
def Field.boundEntry? (f : Field) : Option (Text × CycleFunction) :=
  match f.body with
  | .fixed _ => none
  | .bound function => some (f.name, function)

/-- The fixed entries have the names of the fields that are not bound, in order:
`(fields.filterMap Field.fixedEntry?).map Prod.fst = (fields.filter fun f => !f.isBound).map Field.name`. -/
theorem Field.names_fixedEntry? (fields : List Field) :
    (fields.filterMap Field.fixedEntry?).map Prod.fst =
      (fields.filter fun f => !f.isBound).map Field.name := by
  induction fields with
  | nil => rfl
  | cons f rest ih =>
    obtain ⟨name, body⟩ := f
    cases body with
    | fixed v =>
      rw [List.filterMap_cons_some (by rfl), List.filter_cons_of_pos (by rfl), List.map_cons,
        List.map_cons, ih]
    | bound function =>
      rw [List.filterMap_cons_none (by rfl), List.filter_cons_of_neg (by exact Bool.false_ne_true), ih]

/-- The bound entries have the names of the fields that are bound, in order:
`(fields.filterMap Field.boundEntry?).map Prod.fst = (fields.filter Field.isBound).map Field.name`. -/
theorem Field.names_boundEntry? (fields : List Field) :
    (fields.filterMap Field.boundEntry?).map Prod.fst = (fields.filter Field.isBound).map Field.name := by
  induction fields with
  | nil => rfl
  | cons f rest ih =>
    obtain ⟨name, body⟩ := f
    cases body with
    | fixed v =>
      rw [List.filterMap_cons_none (by rfl), List.filter_cons_of_neg (by exact Bool.false_ne_true), ih]
    | bound function =>
      rw [List.filterMap_cons_some (by rfl), List.filter_cons_of_pos (by rfl), List.map_cons,
        List.map_cons, ih]

/-- The slots stand at the positions of the bound fields and hold their functions: `slot ∈ ofFields position fields ↔
∃ index name, slot.index = position + index ∧ fields[index]? = some ⟨name, .bound slot.function⟩`. -/
theorem Slot.mem_ofFields {position : Nat} {fields : List Field} {slot : Slot} :
    slot ∈ ofFields position fields ↔
      ∃ index name, slot.index = position + index ∧
        fields[index]? = some ⟨name, .bound slot.function⟩ := by
  induction fields generalizing position with
  | nil => simp [ofFields]
  | cons f rest ih =>
    -- What holds of the rest holds one position later of all fields.
    have later : (∃ index name, slot.index = position + 1 + index ∧
        rest[index]? = some ⟨name, .bound slot.function⟩) ↔
          ∃ index name, slot.index = position + (index + 1) ∧
            (f :: rest)[index + 1]? = some ⟨name, .bound slot.function⟩ := by
      simp only [List.getElem?_cons_succ, Nat.add_assoc, Nat.add_comm 1]
    obtain ⟨name, body⟩ := f
    cases body with
    | fixed v =>
      rw [ofFields, ih, later]
      constructor
      · rintro ⟨index, name', place, found⟩
        exact ⟨index + 1, name', place, found⟩
      · rintro ⟨index, name', place, found⟩
        cases index with
        | zero => simp at found
        | succ index => exact ⟨index, name', place, found⟩
    | bound function =>
      rw [ofFields, List.mem_cons, ih, later]
      constructor
      · rintro (rfl | ⟨index, name', place, found⟩)
        · exact ⟨0, name, rfl, rfl⟩
        · exact ⟨index + 1, name', place, found⟩
      · rintro ⟨index, name', place, found⟩
        cases index with
        | zero =>
          obtain ⟨index, function'⟩ := slot
          cases found
          cases place
          exact .inl rfl
        | succ index => exact .inr ⟨index, name', place, found⟩

/-- Reading the names back through `Slot.ofFields` of fields that stand behind other entries gives the bound entries
in order. -/
theorem Slot.entries_ofFields (done : List (Text × Value)) (fields : List Field) :
    (ofFields done.length fields).filterMap (fun slot =>
      ((⟨done ++ fields.map Field.placeholder⟩ : OrderedMap Value).entryAt? slot.index).map
        fun entry => (entry.1, slot.function)) = fields.filterMap Field.boundEntry? := by
  induction fields generalizing done with
  | nil => rfl
  | cons f rest ih =>
    have next := ih (done ++ [f.placeholder])
    rw [List.length_append, List.length_singleton, List.append_assoc, List.singleton_append] at next
    obtain ⟨name, body⟩ := f
    cases body with
    | fixed v =>
      rw [List.filterMap_cons_none (by rfl), ← next]
      rfl
    | bound function =>
      have here : (⟨done ++ (⟨name, .bound function⟩ :: rest : List Field).map Field.placeholder⟩ :
          OrderedMap Value).entryAt? done.length = some (name, .null) := by
        simp [OrderedMap.entryAt?, Field.placeholder]
      rw [ofFields, List.filterMap_cons_some (by rw [here]; rfl), List.filterMap_cons_some (by rfl),
        ← next]
      rfl

/-! ## Filling the slots -/

/-- `fillAll` over the slots of fields behind entries that are done gives the entries of the fields at the cycle, and
stops at the first field that refuses. -/
theorem Plan.fillAll_slots (cycle : Int64) (done : List (Text × Value)) (fields : List Field) :
    fillAll cycle ⟨done ++ fields.map Field.placeholder⟩ (Slot.ofFields done.length fields) =
      (fields.mapM (Field.entryAt cycle)).map fun entries => ⟨done ++ entries⟩ := by
  induction fields generalizing done with
  | nil => rfl
  | cons f rest ih =>
    -- The entry of the first field joins those that are done, which is where the next slot counts from.
    have next (entry : Text × Value) := ih (done ++ [entry])
    simp only [List.length_append, List.length_singleton, List.append_assoc,
      List.singleton_append] at next
    obtain ⟨name, body⟩ := f
    rw [List.mapM_cons, List.map_cons]
    cases body with
    | fixed v =>
      rw [Slot.ofFields]
      simp only [Field.placeholder, Field.entryAt, Field.apply, next, Outcome.map_ok, Outcome.ok_bind]
      cases rest.mapM (Field.entryAt cycle) with
      | error e => rfl
      | ok entries => rfl
    | bound function =>
      rw [Slot.ofFields, fillAll, fill]
      simp only [Field.placeholder, Field.entryAt, Field.apply]
      cases function.apply cycle with
      | error e => rfl
      | ok v =>
        simp only [Outcome.map_ok, Outcome.ok_bind, OrderedMap.setAt_append_cons, next]
        cases rest.mapM (Field.entryAt cycle) with
        | error e => rfl
        | ok entries => rfl

/-- A cycle of a plan whose views are closed gives the entries of its fields in order:
`p.apply cycle = (p.fields.mapM (Field.entryAt cycle)).map OrderedMap.mk`. -/
theorem Plan.apply_eq_mapM {p : Plan} (closed : p.views = Views.closed p.fields) (cycle : Int64) :
    p.apply cycle = (p.fields.mapM (Field.entryAt cycle)).map OrderedMap.mk := by
  rw [apply, closed]
  exact fillAll_slots cycle [] p.fields

end OpCycle
