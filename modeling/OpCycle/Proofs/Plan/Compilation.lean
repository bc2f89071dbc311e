import OpCycle.Proofs.Plan.Views

/-! # What a compiled plan is made of
A plan that compiles comes from an op template with a body: its fields are made one by one from the
preprocessed raw fields, under their names and in their order. -/

namespace OpCycle.Plan

/-- The raw `fields` after `preprocessors`, applied one after another. -/
def preprocess (preprocessors : List Preprocessor) (fields : OrderedMap Value) : OrderedMap Value :=
  preprocessors.foldl (fun fields change => change fields) fields

/-- The first of several preprocessors changes the fields before the others:
`preprocess (change :: rest) fields = preprocess rest (change fields)`. -/
@[simp] theorem preprocess_cons (change : Preprocessor) (rest : List Preprocessor)
    (fields : OrderedMap Value) :
    preprocess (change :: rest) fields = preprocess rest (change fields) := rfl

/-- The preprocessor gives fields with `UniqueKeys` when it gets such fields. -/
def Preprocessor.KeepsKeysUnique (change : Preprocessor) : Prop :=
  ∀ fields : OrderedMap Value, fields.UniqueKeys → (change fields).UniqueKeys

/-- Preprocessors that keep keys distinct do so one after another: `(preprocess preprocessors fields).UniqueKeys`. -/
theorem uniqueKeys_preprocess {preprocessors : List Preprocessor} {fields : OrderedMap Value}
    (keeps : ∀ change ∈ preprocessors, Preprocessor.KeepsKeysUnique change)
    (unique : fields.UniqueKeys) : (preprocess preprocessors fields).UniqueKeys := by
  induction preprocessors generalizing fields with
  | nil => exact unique
  | cons change rest ih =>
    rw [preprocess_cons]
    refine ih (fun other mem => keeps other (List.mem_cons_of_mem _ mem)) ?_
    exact keeps change List.mem_cons_self fields unique

/-- What the fields of `op` are bound with under the parameters of `activity`. -/
def binderOf (op : Op) (activity : Option Activity) (catalog : Catalog) : Binder :=
  ⟨catalog, allowsUnsafe activity, op.bindings⟩

/-- A plan that compiles is made of the fields that `preprocess preprocessors raw` compiles to. -/
theorem compile_eq_ok {op : Op} {activity : Option Activity} {preprocessors : List Preprocessor}
    {catalog : Catalog} {p : Plan} (compiled : compile op activity preprocessors catalog = .ok p) :
    ∃ raw fields captures, op.fields = some raw ∧
      compileFields (binderOf op activity catalog) (preprocess preprocessors raw).entries =
        .ok (fields, captures) ∧
      p = ⟨op, activity, allowsUnsafe activity, fields, captures, Views.ofFields fields⟩ := by
  unfold compile at compiled
  split at compiled
  · cases compiled
  · next raw body =>
    obtain ⟨⟨fields, captures⟩, made, rest⟩ := Outcome.bind_eq_ok.1 compiled
    cases rest
    exact ⟨raw, fields, captures, body, made, rfl⟩

/-- The plan of an op keeps that op: `p.op = op`. -/
theorem op_of_compile {op : Op} {activity : Option Activity} {preprocessors : List Preprocessor}
    {catalog : Catalog} {p : Plan} (compiled : compile op activity preprocessors catalog = .ok p) :
    p.op = op := by
  obtain ⟨_, _, _, -, -, rfl⟩ := compile_eq_ok compiled
  rfl

/-- The field made from a raw value has the name it is made under: `f.name = name`. -/
theorem compileField_name {b : Binder} {name : Text} {raw : Value} {f : Field}
    {group : List (List Capture)} (made : compileField b name raw = .ok (f, group)) :
    f.name = name := by
  unfold compileField at made
  split at made
  · obtain ⟨t, -, made⟩ := Outcome.bind_eq_ok.1 made
    obtain ⟨body, -, made⟩ := Outcome.bind_eq_ok.1 made
    cases made
    rfl
  · cases made
    rfl

/-- Fields that compile are the one of `compileField` for the first raw value, and those made from the rest. -/
theorem compileFields_cons_eq_ok {b : Binder} {name : Text} {raw : Value}
    {rest : List (Text × Value)} {fields : List Field} {captures : List (List Capture)}
    (made : compileFields b ((name, raw) :: rest) = .ok (fields, captures)) :
    ∃ f group others groups, compileField b name raw = .ok (f, group) ∧
      compileFields b rest = .ok (others, groups) ∧ fields = f :: others ∧
      captures = group ++ groups := by
  rw [compileFields] at made
  obtain ⟨⟨f, group⟩, head, made⟩ := Outcome.bind_eq_ok.1 made
  obtain ⟨⟨others, groups⟩, tail, made⟩ := Outcome.bind_eq_ok.1 made
  cases made
  exact ⟨f, group, others, groups, head, tail, rfl, rfl⟩

/-- Fields are made one after another by `compileField`, and the captures of each stand behind those of the ones
before. -/
theorem compileFields_eq_mapM (b : Binder) (entries : List (Text × Value)) :
    compileFields b entries =
      (entries.mapM fun entry => compileField b entry.1 entry.2).map fun made =>
        (made.map Prod.fst, (made.map Prod.snd).flatten) := by
  induction entries with
  | nil => rfl
  | cons entry rest ih =>
    obtain ⟨name, raw⟩ := entry
    rw [compileFields, List.mapM_cons, ih]
    cases compileField b name raw with
    | error e => rfl
    | ok first =>
      cases rest.mapM fun entry => compileField b entry.1 entry.2 with
      | error e => rfl
      | ok made => rfl

/-- The names of fields that compile are the keys of the raw fields in order:
`fields.map Field.name = entries.map Prod.fst`. -/
theorem compileFields_names {b : Binder} {entries : List (Text × Value)} {fields : List Field}
    {captures : List (List Capture)} (made : compileFields b entries = .ok (fields, captures)) :
    fields.map Field.name = entries.map Prod.fst := by
  induction entries generalizing fields captures with
  | nil =>
    cases made
    rfl
  | cons entry rest ih =>
    obtain ⟨name, raw⟩ := entry
    obtain ⟨f, group, others, groups, head, tail, rfl, -⟩ := compileFields_cons_eq_ok made
    rw [List.map_cons, List.map_cons, ih tail, compileField_name head]

/-- The names of a plan that compiles are the keys of its preprocessed raw fields in order:
`p.names = (preprocess preprocessors raw).keys`. -/
theorem names_of_compile {op : Op} {activity : Option Activity} {preprocessors : List Preprocessor}
    {catalog : Catalog} {raw : OrderedMap Value} {p : Plan} (body : op.fields = some raw)
    (compiled : compile op activity preprocessors catalog = .ok p) :
    p.names = (preprocess preprocessors raw).keys := by
  obtain ⟨raw', fields, captures, body', made, rfl⟩ := compile_eq_ok compiled
  cases body.symm.trans body'
  exact compileFields_names made

/-- A plan compiled from raw fields with distinct keys has closed views: `p.views = Views.closed p.fields`. -/
theorem views_eq_closed {op : Op} {activity : Option Activity} {preprocessors : List Preprocessor}
    {catalog : Catalog} {raw : OrderedMap Value} {p : Plan} (body : op.fields = some raw)
    (unique : (preprocess preprocessors raw).UniqueKeys)
    (compiled : compile op activity preprocessors catalog = .ok p) :
    p.views = Views.closed p.fields := by
  obtain ⟨raw', fields, captures, body', made, rfl⟩ := compile_eq_ok compiled
  cases body.symm.trans body'
  refine Views.ofFields_eq_closed ?_
  rw [compileFields_names made]
  exact unique

end OpCycle.Plan
