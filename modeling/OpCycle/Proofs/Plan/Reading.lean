import OpCycle.Plan.Shape
import OpCycle.Proofs.Plan.Fields
import OpCycle.Proofs.Plan.Interpretation

/-! # Reading fields at a cycle
A cycle can be read as a whole, field by field, or through a list, an array or a map of some of its fields.
All of these give the same values: a shape gives what a get of each of its names gives, and fails as the
first get that fails; a get gives the entry of the whole cycle; and the map of all names is the whole
cycle.

* `functionsOf_applyAll`: functions for names give what gets of them give.
* `FailsAsGets`, `reads_agree`: all ways to read a cycle agree, in values and in faults. -/

namespace OpCycle

/-- The values of functions at a cycle are found by a run over the functions:
`applyAll cycle functions = functions.mapM fun function => function.apply cycle`. -/
theorem CycleFunction.applyAll_eq_mapM (cycle : Int64) (functions : List CycleFunction) :
    applyAll cycle functions = functions.mapM fun function => function.apply cycle := by
  induction functions with
  | nil => rfl
  | cons function rest ih => rw [applyAll, ih, List.mapM_cons]

namespace Plan

variable {p : Plan} {name : Text} {cycle : Int64}

/-- The names are read as gets of them are: `read` fails exactly when `p.get` of some name does, with the error of the
first such name. -/
def FailsAsGets {α : Type} (p : Plan) (names : List Text) (cycle : Int64) (read : Except ValueFault α) :
    Prop :=
  ((∃ e, read = .error e) ↔ ∃ name ∈ names, ∃ e, p.get name cycle = .error e) ∧
    ∀ e, read = .error e ↔
      ∃ before name after, names = before ++ name :: after ∧
        (∀ earlier ∈ before, ∃ v, p.get earlier cycle = .ok v) ∧ p.get name cycle = .error e

/-! ## Gets -/

/-- A get of a field that is found applies the field: `p.get name cycle = f.apply cycle`. -/
theorem get_of_field? {f : Field} (found : p.field? name = some f) : p.get name cycle = f.apply cycle := by
  rw [get, found]

/-- A get of a name that no field has is null: `p.get name cycle = .ok .null`. -/
theorem get_of_undefined (undefined : ¬ p.isDefined name) : p.get name cycle = .ok .null := by
  rw [isDefined_iff, ← field?_eq_none_iff] at undefined
  rw [get, undefined]

/-- The function for a name gives what a get of it gives:
`(p.functionOr name .null).apply cycle = p.get name cycle`. -/
theorem functionOr_apply (p : Plan) (name : Text) (cycle : Int64) :
    (p.functionOr name .null).apply cycle = p.get name cycle := by
  obtain ⟨v, found⟩ | ⟨function, found⟩ | found := p.field?_cases name
  · rw [functionOr, get, found]
    rfl
  · rw [functionOr, get, found]
    rfl
  · rw [functionOr, get, found]
    rfl

/-- The functions for names give what gets of them give:
`CycleFunction.applyAll cycle (p.functionsOf names) = names.mapM fun name => p.get name cycle`. -/
theorem functionsOf_applyAll (p : Plan) (names : List Text) (cycle : Int64) :
    CycleFunction.applyAll cycle (p.functionsOf names) = names.mapM fun name => p.get name cycle := by
  rw [CycleFunction.applyAll_eq_mapM, functionsOf, List.mapM_map]
  exact Outcome.mapM_congr fun name _ => p.functionOr_apply name cycle

/-- A run of gets, whatever is made of its values, fails as the gets:
`p.FailsAsGets names cycle ((names.mapM fun name => p.get name cycle).map make)`. -/
theorem failsAsGets_map {α : Type} (p : Plan) (names : List Text) (cycle : Int64)
    (make : List Value → α) :
    p.FailsAsGets names cycle ((names.mapM fun name => p.get name cycle).map make) := by
  constructor
  · simp only [Outcome.map_eq_error]
    exact Outcome.mapM_fails_iff
  · intro e
    rw [Outcome.map_eq_error]
    exact Outcome.mapM_eq_error_iff

/-! ## Shapes -/

/-- A list of fields is the list of gets:
`(p.listShape names).apply cycle = names.mapM fun name => p.get name cycle`. -/
theorem listShape_apply (p : Plan) (names : List Text) (cycle : Int64) :
    (p.listShape names).apply cycle = names.mapM fun name => p.get name cycle :=
  p.functionsOf_applyAll names cycle

/-- An array of fields has the list of gets:
`(p.arrayShape names).apply cycle = (names.mapM fun name => p.get name cycle).map List.toArray`. -/
theorem arrayShape_apply (p : Plan) (names : List Text) (cycle : Int64) :
    (p.arrayShape names).apply cycle = (names.mapM fun name => p.get name cycle).map List.toArray := by
  rw [← functionsOf_applyAll]
  rfl

/-- A map of fields stores the gets one after another under their names: `(p.mapShape names).apply cycle = (names.mapM
fun name => p.get name cycle).map fun values => .ofList (names.zip values)`. -/
theorem mapShape_apply (p : Plan) (names : List Text) (cycle : Int64) :
    (p.mapShape names).apply cycle =
      (names.mapM fun name => p.get name cycle).map fun values => .ofList (names.zip values) := by
  rw [← functionsOf_applyAll]
  rfl

/-- A map of fields is built from the gets with their names: `(p.mapShape names).apply cycle = (names.mapM fun name =>
(p.get name cycle).map fun v => (name, v)).map OrderedMap.ofList`. -/
theorem mapShape_apply_pairs (p : Plan) (names : List Text) (cycle : Int64) :
    (p.mapShape names).apply cycle =
      (names.mapM fun name => (p.get name cycle).map fun v => (name, v)).map OrderedMap.ofList := by
  rw [mapShape_apply, Outcome.mapM_pair]
  cases names.mapM fun name => p.get name cycle with
  | error e => rfl
  | ok values => rfl

/-- A map of fields has the names as its keys, each once where it first occurs, and under each name what a get of it
gives: `m.keys = names.eraseDups ∧ ∀ name ∈ names, ∃ v, p.get name cycle = .ok v ∧ m.find? name = some v`. -/
theorem mapShape_entries {names : List Text} {m : OrderedMap Value}
    (run : (p.mapShape names).apply cycle = .ok m) :
    m.keys = names.eraseDups ∧
      ∀ name ∈ names, ∃ v, p.get name cycle = .ok v ∧ m.find? name = some v := by
  rw [mapShape_apply_pairs] at run
  obtain ⟨pairs, made, rfl⟩ := Spec.map_eq_ok run
  have keys : pairs.map Prod.fst = names := by
    rw [← List.map_id names]
    refine Outcome.map_of_made made fun name pair paired => ?_
    obtain ⟨v, -, rfl⟩ := Spec.map_eq_ok paired
    rfl
  -- The same name may be stored many times, but always with the value of its get.
  have stored : ∀ pair ∈ pairs, p.get pair.1 cycle = .ok pair.2 := by
    intro pair mem
    obtain ⟨name, -, paired⟩ := Outcome.exists_of_mem_made made mem
    obtain ⟨v, got, rfl⟩ := Spec.map_eq_ok paired
    exact got
  refine ⟨by rw [OrderedMap.keys_ofList, keys], fun name mem => ?_⟩
  rw [← keys] at mem
  obtain ⟨⟨name, v⟩, memPairs, rfl⟩ := List.mem_map.1 mem
  refine ⟨v, stored _ memPairs, OrderedMap.find?_overlayEntries ?_ (.inl mem)⟩
  rintro ⟨other, w⟩ memOther rfl
  exact Except.ok.inj ((stored _ memOther).symm.trans (stored _ memPairs))

/-! ## Whole cycles -/

section Closed

variable (closed : p.views = Views.closed p.fields) (distinct : p.names.Nodup)

include closed distinct

/-- A get of a name of a cycle gives the entry of the cycle:
`∃ v, p.get name cycle = .ok v ∧ m.find? name = some v`. -/
theorem get_of_apply {m : OrderedMap Value} (run : p.apply cycle = .ok m) (mem : name ∈ p.names) :
    ∃ v, p.get name cycle = .ok v ∧ m.find? name = some v := by
  have keys := keys_of_apply closed run
  have unique : m.UniqueKeys := by
    rw [OrderedMap.UniqueKeys, keys]
    exact distinct
  rw [apply_eq_mapM closed] at run
  obtain ⟨entries, made, rfl⟩ := Spec.map_eq_ok run
  rw [← keys] at mem
  obtain ⟨⟨name, v⟩, memEntries, rfl⟩ := List.mem_map.1 mem
  obtain ⟨f, memFields, at_cycle⟩ := Outcome.exists_of_mem_made made memEntries
  obtain ⟨w, applied, entry⟩ := Spec.map_eq_ok at_cycle
  cases entry
  exact ⟨v, (get_of_field? (field?_of_mem distinct memFields)).trans applied,
    (OrderedMap.find?_eq_some_iff unique).2 memEntries⟩

/-- The map of all names is the whole cycle, and fails as it fails:
`(p.mapShape p.names).apply cycle = p.apply cycle`. -/
theorem mapShape_names : (p.mapShape p.names).apply cycle = p.apply cycle := by
  -- A get of the name of a field applies that field, so both sides run over the fields alike.
  have pairs : (p.names.mapM fun name => (p.get name cycle).map fun v => (name, v)) =
      p.fields.mapM (Field.entryAt cycle) := by
    rw [names, List.mapM_map]
    refine Outcome.mapM_congr fun f mem => ?_
    show (p.get f.name cycle).map _ = _
    rw [get_of_field? (field?_of_mem distinct mem)]
    rfl
  rw [mapShape_apply_pairs, pairs, apply_eq_mapM closed]
  cases made : p.fields.mapM (Field.entryAt cycle) with
  | error e => rfl
  | ok entries =>
    -- Storing entries with distinct keys one after another gives them back as they are.
    have run : p.apply cycle = .ok ⟨entries⟩ := by rw [apply_eq_mapM closed, made, Outcome.map_ok]
    have keys : (⟨entries⟩ : OrderedMap Value).keys.Nodup := by
      rw [keys_of_apply closed run]
      exact distinct
    rw [Outcome.map_ok, Outcome.map_ok, OrderedMap.ofList_of_nodup keys]

end Closed

/-- **All ways to read a cycle agree.** `listShape` and `arrayShape` of names are the gets in the order asked for;
`mapShape` has each name where it first occurs, with what a get of it gives; each of the three `FailsAsGets`, as the
first get that fails. A get gives the entry of `p.apply cycle`, and null under a name that no field has; and the map
of all names is the whole cycle. -/
theorem reads_agree {op : Op} {activity : Option Activity} {preprocessors : List Preprocessor}
    {catalog : Catalog} {raw : OrderedMap Value} {p : Plan} (body : op.fields = some raw)
    (unique : (preprocess preprocessors raw).UniqueKeys)
    (compiled : compile op activity preprocessors catalog = .ok p) (names : List Text) (cycle : Int64) :
    (p.listShape names).apply cycle = (names.mapM fun name => p.get name cycle) ∧
      ((p.arrayShape names).apply cycle).map Array.toList = (names.mapM fun name => p.get name cycle) ∧
      (∀ m, (p.mapShape names).apply cycle = .ok m → m.keys = names.eraseDups ∧
        ∀ name ∈ names, ∃ v, p.get name cycle = .ok v ∧ m.find? name = some v) ∧
      (p.FailsAsGets names cycle ((p.listShape names).apply cycle) ∧
        p.FailsAsGets names cycle ((p.arrayShape names).apply cycle) ∧
        p.FailsAsGets names cycle ((p.mapShape names).apply cycle)) ∧
      (∀ m, p.apply cycle = .ok m →
        ∀ name, p.isDefined name → ∃ v, p.get name cycle = .ok v ∧ m.find? name = some v) ∧
      (∀ name, ¬ p.isDefined name → p.get name cycle = .ok .null) ∧
      (p.mapShape p.names).apply cycle = p.apply cycle := by
  -- Each binder is a run of `get` over the names, collected as a list, an array or a map.
  have closed := views_eq_closed body unique compiled
  have distinct : p.names.Nodup := by
    rw [names_of_compile body compiled]
    exact unique
  refine ⟨p.listShape_apply names cycle, ?_, fun m => mapShape_entries, ⟨?_, ?_, ?_⟩, ?_,
    fun name => get_of_undefined, mapShape_names closed distinct⟩
  · rw [arrayShape_apply]
    cases names.mapM fun name => p.get name cycle with
    | error e => rfl
    | ok values => rfl
  · have fails := p.failsAsGets_map names cycle id
    rw [listShape_apply]
    cases h : names.mapM fun name => p.get name cycle with
    | error e => rwa [h] at fails
    | ok values => rwa [h] at fails
  · rw [arrayShape_apply]
    exact p.failsAsGets_map names cycle _
  · rw [mapShape_apply]
    exact p.failsAsGets_map names cycle _
  · exact fun m run name defined => get_of_apply closed distinct run (isDefined_iff.1 defined)

/-- Asked for in another order, one of them twice and one that is no field, the fields of the sample are
read alike; and its whole cycle is the map of all of them. -/
theorem reads_agree_sample :
    ∃ p, sampleOp.fields = some sampleFields ∧
      (preprocess [sampleChange] sampleFields).UniqueKeys ∧
      compile sampleOp none [sampleChange] Basics.catalog = .ok p ∧
      (p.listShape ["key", "size", "other", "key"]).apply 7 =
        (["key", "size", "other", "key"].mapM fun name => p.get name 7) ∧
      (∀ m, (p.mapShape ["key", "size", "other", "key"]).apply 7 = .ok m →
        m.keys = ["key", "size", "other"]) ∧
      p.FailsAsGets ["key", "size", "other", "key"] 7
        ((p.mapShape ["key", "size", "other", "key"]).apply 7) ∧
      (p.mapShape p.names).apply 7 = p.apply 7 := by
  obtain ⟨p, compiled⟩ := sampleOp_compiles
  obtain ⟨list, -, keys, ⟨-, -, fails⟩, -, -, whole⟩ :=
    reads_agree rfl sampleFields_unique compiled ["key", "size", "other", "key"] 7
  exact ⟨p, rfl, sampleFields_unique, compiled, list, fun m run => (keys m run).1, fails, whole⟩

end Plan

end OpCycle
