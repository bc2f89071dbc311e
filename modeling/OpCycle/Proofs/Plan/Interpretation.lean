import OpCycle.Basics.Library
import OpCycle.Proofs.Plan.Compilation

/-! # Plans against an interpreter
The interpreter reads the raw fields of an op from scratch at every cycle: it classifies each text, looks
up the specification of each bind point and applies what that resolves to. A plan does all of this once
and then only fills the slots of its skeleton. Both give the same map at every cycle, and the same error
when a function refuses.

* `Binder.interpret`: the interpreter.
* `parts_applyAll`, `apply_eq_error_iff`: joined texts, and the first field that refuses.
* `apply_eq_interpret`: the plan and the interpreter agree. -/

namespace OpCycle.Plan

/-- Why raw fields have no value at a cycle. -/
inductive ReadingError
  /-- The text of a field is no template. -/
  | template (e : TemplateError)
  /-- A specification does not resolve. -/
  | spec (e : SpecError)
  /-- A function refuses its input, or gives a value without a text where a text is needed. -/
  | refused (fault : ValueFault)

namespace Binder

/-- The value of `spec` at `cycle`. -/
def valueAt (b : Binder) (cycle : Int64) (spec : Text) : Except ReadingError Value := do
  let chain ← (b.catalog.resolve spec b.allowUnsafe).mapError .spec
  (chain.apply cycle).mapError .refused

/-- The text of a segment at `cycle`: a literal has its own, and a bind point the text of its value, if `Value.toText`
gives one. -/
def segmentAt (b : Binder) (cycle : Int64) : Segment → Except ReadingError Text
  | .literal text => .ok text
  | .bind point _ => do
    let v ← b.valueAt cycle point.spec
    v.toText.mapError .refused

/-- The value of the text `raw` with its classification `t` at `cycle`. A text without bind points is its own value, a
lone bind point has the value of its specification, and anything else is joined into a text. -/
def templateAt (b : Binder) (cycle : Int64) (raw : Text) (t : Template) : Except ReadingError Value :=
  match t.asBinding with
  | some point => b.valueAt cycle point.spec
  | none =>
    if t.kind = .literal then .ok (.text raw)
    else (t.segments.mapM (b.segmentAt cycle)).map fun texts => .text texts.flatten

/-- The value of a raw field at `cycle`: a text by `templateAt`, anything else is its own value. -/
def fieldAt (b : Binder) (cycle : Int64) : Value → Except ReadingError Value
  | .text s => do
    let t ← (Template.classify s b.bindings).mapError .template
    b.templateAt cycle s t
  | v => .ok v

/-- The entry of a raw field at `cycle`, by `fieldAt`. -/
def entryAt (b : Binder) (cycle : Int64) (entry : Text × Value) :
    Except ReadingError (Text × Value) :=
  (b.fieldAt cycle entry.2).map fun v => (entry.1, v)

/-- The `raw` fields at `cycle`, read one after another up to the first that has no value. -/
def interpret (b : Binder) (cycle : Int64) (raw : OrderedMap Value) :
    Except ReadingError (OrderedMap Value) :=
  (raw.entries.mapM (b.entryAt cycle)).map OrderedMap.mk

end Binder

/-! ## Bind points and segments -/

/-- A look-up finds what the specification resolves to: `catalog.resolve spec allowUnsafe = .ok chain`. -/
theorem lookup_eq_some {catalog : Catalog} {spec : Text} {allowUnsafe : Bool} {chain : Chain}
    (found : catalog.lookup spec allowUnsafe = some chain) :
    catalog.resolve spec allowUnsafe = .ok chain := by
  unfold Catalog.lookup at found
  cases h : catalog.resolve spec allowUnsafe with
  | error e =>
    rw [h] at found
    cases found
  | ok c =>
    rw [h] at found
    cases found
    rfl

/-- The chain of a bind point is what its specification resolves to:
`catalog.resolve point.spec allowUnsafe = .ok chain`. -/
theorem chain_eq_ok {catalog : Catalog} {allowUnsafe : Bool} {field : Text} {point : BindPoint}
    {chain : Chain} (h : point.chain catalog allowUnsafe field = .ok chain) :
    catalog.resolve point.spec allowUnsafe = .ok chain := by
  unfold BindPoint.chain at h
  split at h
  · split at h
    · next found =>
      cases h
      exact lookup_eq_some found
    · cases h
  · cases h

/-- A specification that resolves has the values of its chain:
`b.valueAt cycle spec = (chain.apply cycle).mapError .refused`. -/
theorem Binder.valueAt_of_resolve {b : Binder} {spec : Text} {chain : Chain}
    (resolved : b.catalog.resolve spec b.allowUnsafe = .ok chain) (cycle : Int64) :
    b.valueAt cycle spec = (chain.apply cycle).mapError .refused := by
  rw [valueAt, resolved, Outcome.mapError_ok, Outcome.ok_bind]

/-- The part that a segment makes gives the text of the segment:
`(part.apply cycle).mapError .refused = b.segmentAt cycle segment`. -/
theorem part_apply {b : Binder} {field : Text} {segment : Segment} {part : Part}
    (made : segment.part b.catalog b.allowUnsafe field = .ok part) (cycle : Int64) :
    (part.apply cycle).mapError .refused = b.segmentAt cycle segment := by
  cases segment with
  | literal text =>
    cases made
    rfl
  | bind point index =>
    obtain ⟨chain, bound, rfl⟩ := Spec.map_eq_ok made
    rw [Binder.segmentAt, Binder.valueAt_of_resolve (chain_eq_ok bound), Part.apply,
      Outcome.mapError_bind]

/-- The text of parts in a row joins their texts:
`Part.applyAll cycle parts = (parts.mapM fun part : Part => part.apply cycle).map List.flatten`. -/
theorem applyAll_eq_mapM (cycle : Int64) (parts : List Part) :
    Part.applyAll cycle parts = (parts.mapM fun part : Part => part.apply cycle).map List.flatten := by
  induction parts with
  | nil => rfl
  | cons part rest ih =>
    rw [Part.applyAll, List.mapM_cons, ih]
    cases part.apply cycle with
    | error m => rfl
    | ok text =>
      cases rest.mapM fun part : Part => part.apply cycle with
      | error m => rfl
      | ok texts => rfl

/-- The parts that segments make give the texts of the segments, joined:
`(Part.applyAll cycle parts).mapError .refused = (segments.mapM (b.segmentAt cycle)).map List.flatten`. -/
theorem parts_applyAll {b : Binder} {field : Text} {segments : List Segment} {parts : List Part}
    (made : segments.mapM (Segment.part b.catalog b.allowUnsafe field) = .ok parts) (cycle : Int64) :
    (Part.applyAll cycle parts).mapError .refused =
      (segments.mapM (b.segmentAt cycle)).map List.flatten := by
  rw [applyAll_eq_mapM, Outcome.mapError_map, Outcome.mapError_mapM,
    Outcome.mapM_of_made made fun segment part h => part_apply h cycle]

/-! ## Fields -/

/-- A template of the kind of a lone bind point has that bind point in front:
`∃ point rest, t.bindPoints = point :: rest ∧ t.asBinding = some point`. -/
theorem asBinding_of_bindref {t : Template} (kind : t.kind = .bindref) :
    ∃ point rest, t.bindPoints = point :: rest ∧ t.asBinding = some point := by
  cases h : t.bindPoints with
  | nil =>
    rw [Template.kind, h, List.isEmpty_nil, if_pos rfl] at kind
    cases kind
  | cons point rest =>
    refine ⟨point, rest, rfl, ?_⟩
    rw [Template.asBinding, if_pos kind, h, List.head?_cons]

/-- A template of another kind is no lone bind point: `t.asBinding = none`. -/
theorem asBinding_eq_none {t : Template} (kind : t.kind ≠ .bindref) : t.asBinding = none :=
  if_neg kind

/-- What a text makes of its field gives the value of the text:
`((⟨name, body⟩ : Field).apply cycle).mapError .refused = b.templateAt cycle raw t`. -/
theorem bindTemplate_apply {b : Binder} {name raw : Text} {t : Template} {body : FieldBody}
    (made : bindTemplate b name raw t = .ok body) (cycle : Int64) :
    ((⟨name, body⟩ : Field).apply cycle).mapError .refused = b.templateAt cycle raw t := by
  unfold Binder.templateAt
  cases kind : t.kind with
  | literal =>
    -- Both keep the raw text.
    rw [bindTemplate, kind] at made
    cases made
    rw [asBinding_eq_none (by rw [kind]; decide), if_pos rfl]
    rfl
  | bindref =>
    -- Both apply what the lone bind point resolves to.
    obtain ⟨point, rest, points, lone⟩ := asBinding_of_bindref kind
    rw [bindTemplate, kind, points] at made
    obtain ⟨chain, bound, rfl⟩ := Spec.map_eq_ok made
    rw [lone]
    exact (Binder.valueAt_of_resolve (chain_eq_ok bound) cycle).symm
  | concat =>
    -- The parts were made from the segments one by one.
    rw [bindTemplate, kind] at made
    obtain ⟨function, joined, rfl⟩ := Spec.map_eq_ok made
    obtain ⟨parts, segments, rest⟩ := Outcome.bind_eq_ok.1 joined
    cases rest
    have texts := parts_applyAll segments cycle
    rw [asBinding_eq_none (by rw [kind]; decide), if_neg (by decide)]
    show ((Part.applyAll cycle parts).map Value.text).mapError ReadingError.refused = _
    rw [Outcome.mapError_map, texts]
    cases t.segments.mapM (b.segmentAt cycle) with
    | error e => rfl
    | ok texts => rfl

/-- A field that compiles has the entry of its raw value:
`(f.entryAt cycle).mapError .refused = b.entryAt cycle (name, raw)`. -/
theorem compileField_entryAt {b : Binder} {name : Text} {raw : Value} {f : Field}
    {group : List (List Capture)} (made : compileField b name raw = .ok (f, group)) (cycle : Int64) :
    (f.entryAt cycle).mapError .refused = b.entryAt cycle (name, raw) := by
  unfold compileField at made
  split at made
  · next s =>
    obtain ⟨t, classified, made⟩ := Outcome.bind_eq_ok.1 made
    obtain ⟨body, bound, made⟩ := Outcome.bind_eq_ok.1 made
    cases made
    have value := bindTemplate_apply (Outcome.mapError_eq_ok.1 bound) cycle
    rw [Field.entryAt, Outcome.mapError_map, value, Binder.entryAt, Binder.fieldAt,
      Outcome.mapError_eq_ok.1 classified, Outcome.mapError_ok, Outcome.ok_bind]
  · next notText =>
    cases made
    cases raw with
    | text s => exact absurd rfl (notText s)
    | _ => rfl

/-- Fields that compile have the entries of their raw values:
`(fields.mapM (Field.entryAt cycle)).mapError .refused = entries.mapM (b.entryAt cycle)`. -/
theorem compileFields_entryAt {b : Binder} {entries : List (Text × Value)} {fields : List Field}
    {captures : List (List Capture)} (made : compileFields b entries = .ok (fields, captures))
    (cycle : Int64) :
    (fields.mapM (Field.entryAt cycle)).mapError .refused = entries.mapM (b.entryAt cycle) := by
  induction entries generalizing fields captures with
  | nil =>
    cases made
    rfl
  | cons entry rest ih =>
    obtain ⟨name, raw⟩ := entry
    obtain ⟨f, group, others, groups, head, tail, rfl, -⟩ := compileFields_cons_eq_ok made
    rw [Outcome.mapError_mapM, List.mapM_cons, List.mapM_cons, compileField_entryAt head,
      ← Outcome.mapError_mapM, ih tail]

/-! ## Cycles -/

/-- A field that refuses its cycle is bound: `f.isBound`. -/
theorem isBound_of_apply_eq_error {f : Field} {cycle : Int64} {e : ValueFault}
    (refused : f.apply cycle = .error e) : f.isBound := by
  obtain ⟨name, body⟩ := f
  cases body with
  | fixed v => cases refused
  | bound function => rfl

/-- The entry of a field exists where the field has a value:
`(∃ entry, f.entryAt cycle = .ok entry) ↔ ∃ v, f.apply cycle = .ok v`. -/
theorem entryAt_eq_ok {f : Field} {cycle : Int64} :
    (∃ entry, f.entryAt cycle = .ok entry) ↔ ∃ v, f.apply cycle = .ok v := by
  rw [Field.entryAt]
  constructor
  · rintro ⟨entry, h⟩
    obtain ⟨v, hv, -⟩ := Spec.map_eq_ok h
    exact ⟨v, hv⟩
  · rintro ⟨v, hv⟩
    exact ⟨(f.name, v), by rw [hv, Outcome.map_ok]⟩

/-- A cycle of a plan with `Views.closed` has the error of the first field that refuses it. -/
theorem apply_eq_error_iff {p : Plan} (closed : p.views = Views.closed p.fields) {cycle : Int64}
    {e : ValueFault} :
    p.apply cycle = .error e ↔
      ∃ before f after, p.fields = before ++ f :: after ∧
        (∀ earlier ∈ before, ∃ v, earlier.apply cycle = .ok v) ∧ f.isBound ∧
        f.apply cycle = .error e := by
  have whole : p.apply cycle = .error e ↔ p.fields.mapM (Field.entryAt cycle) = .error e := by
    rw [apply_eq_mapM closed, Outcome.map_eq_error]
  rw [whole, Outcome.mapM_eq_error_iff]
  constructor
  · rintro ⟨before, f, after, split, fine, refused⟩
    have refused := Outcome.map_eq_error.1 refused
    exact ⟨before, f, after, split, fun g mem => entryAt_eq_ok.1 (fine g mem),
      isBound_of_apply_eq_error refused, refused⟩
  · rintro ⟨before, f, after, split, fine, -, refused⟩
    exact ⟨before, f, after, split, fun g mem => entryAt_eq_ok.2 (fine g mem),
      Outcome.map_eq_error.2 refused⟩

/-- A cycle of a plan with closed views keeps the names in order: `m.keys = p.names`. -/
theorem keys_of_apply {p : Plan} (closed : p.views = Views.closed p.fields) {cycle : Int64}
    {m : OrderedMap Value} (run : p.apply cycle = .ok m) : m.keys = p.names := by
  rw [apply_eq_mapM closed] at run
  obtain ⟨entries, made, rfl⟩ := Spec.map_eq_ok run
  refine Outcome.map_of_made made ?_
  intro f entry at_cycle
  obtain ⟨v, -, rfl⟩ := Spec.map_eq_ok at_cycle
  rfl

/-- **A plan agrees with the interpreter at every cycle.** `p.apply cycle` is the map that `interpret` gives, reading
the preprocessed raw fields from scratch, under the same keys in the same order. It fails exactly when a bound field
refuses the cycle or has no text to join, with the fault of the first such field. -/
theorem apply_eq_interpret {op : Op} {activity : Option Activity} {preprocessors : List Preprocessor}
    {catalog : Catalog} {raw : OrderedMap Value} {p : Plan} (body : op.fields = some raw)
    (unique : raw.UniqueKeys) (keeps : ∀ change ∈ preprocessors, Preprocessor.KeepsKeysUnique change)
    (compiled : compile op activity preprocessors catalog = .ok p) (cycle : Int64) :
    (p.apply cycle).mapError .refused =
        (binderOf op activity catalog).interpret cycle (preprocess preprocessors raw) ∧
      p.names = (preprocess preprocessors raw).keys ∧
      (∀ m, p.apply cycle = .ok m → m.keys = p.names) ∧
      ((∃ e, p.apply cycle = .error e) ↔
        ∃ f ∈ p.fields, f.isBound ∧ ∃ e, f.apply cycle = .error e) ∧
      ∀ e, p.apply cycle = .error e ↔
        ∃ before f after, p.fields = before ++ f :: after ∧
          (∀ earlier ∈ before, ∃ v, earlier.apply cycle = .ok v) ∧ f.isBound ∧
          f.apply cycle = .error e := by
  -- The views are filters of one field list; apply is the same list mapped entry by entry.
  have closed := views_eq_closed body (uniqueKeys_preprocess keeps unique) compiled
  obtain ⟨raw', fields, captures, body', made, rfl⟩ := compile_eq_ok compiled
  cases body.symm.trans body'
  refine ⟨?_, compileFields_names made, fun m => keys_of_apply closed, ?_,
    fun e => apply_eq_error_iff closed⟩
  · rw [apply_eq_mapM closed, Outcome.mapError_map, compileFields_entryAt made]
    rfl
  · constructor
    · rintro ⟨e, refused⟩
      obtain ⟨before, f, after, split, -, bound, refused⟩ := (apply_eq_error_iff closed).1 refused
      refine ⟨f, ?_, bound, e, refused⟩
      rw [split]
      exact List.mem_append_right _ List.mem_cons_self
    · rintro ⟨f, mem, -, e, refused⟩
      cases run : apply _ cycle with
      | error e' => exact ⟨e', rfl⟩
      | ok m =>
        rw [apply_eq_mapM closed] at run
        obtain ⟨entries, made, -⟩ := Spec.map_eq_ok run
        obtain ⟨v, hv⟩ := entryAt_eq_ok.1 (Outcome.ok_of_mem made mem)
        cases refused.symm.trans hv

/-- The fields of an op with a number, a text with a capture, a lone bind point, and a joined text whose
second bind point refuses every cycle. -/
def sampleFields : OrderedMap Value :=
  .ofList [("size", .int 4), ("note", .text "\\[[x as y]"), ("key", .text "\x7bid\x7d"),
    ("all", .text "k=\x7bid\x7d, \x7b\x7b FixedValue(true); Mod(2) \x7d\x7d")]

/-- An op with the fields `sampleFields`. -/
def sampleOp : Op :=
  { name := "sample", fields := some sampleFields,
    bindings := .ofList [("id", "Mod(10); Prefix('user-')")], params := ∅, tags := ∅ }

/-- A change to the fields of `sampleOp`. -/
def sampleChange : Preprocessor := fun fields => fields.set "size" (.int 5)

/-- After the change the fields have distinct keys: `(preprocess [sampleChange] sampleFields).UniqueKeys`. -/
theorem sampleFields_unique : (preprocess [sampleChange] sampleFields).UniqueKeys := by
  decide +kernel

/-- After the change the op compiles: `∃ p, compile sampleOp none [sampleChange] Basics.catalog = .ok p`. -/
theorem sampleOp_compiles : ∃ p, compile sampleOp none [sampleChange] Basics.catalog = .ok p := by
  have outcome : (compile sampleOp none [sampleChange] Basics.catalog).toBool = true := by
    decide +kernel
  cases compiled : compile sampleOp none [sampleChange] Basics.catalog with
  | error e =>
    rw [compiled] at outcome
    cases outcome
  | ok p => exact ⟨p, rfl⟩

/-- The op compiles after the change, and its plan agrees with the interpreter in the error. -/
theorem apply_eq_interpret_sample :
    ∃ p, sampleOp.fields = some sampleFields ∧ sampleFields.UniqueKeys ∧
      (∀ change ∈ [sampleChange], Preprocessor.KeepsKeysUnique change) ∧
      compile sampleOp none [sampleChange] Basics.catalog = .ok p ∧
      (p.apply 7).mapError .refused =
        (binderOf sampleOp none Basics.catalog).interpret 7 (sampleChange sampleFields) ∧
      ∃ e, p.apply 7 = .error e := by
  have unique : sampleFields.UniqueKeys := by decide +kernel
  have keeps : ∀ change ∈ [sampleChange], Preprocessor.KeepsKeysUnique change := by
    intro change mem fields unique
    rw [List.mem_singleton.1 mem]
    exact unique.set _ _
  -- Evaluated once: the plan compiles and its apply at cycle 7 fails.
  have outcome : (match compile sampleOp none [sampleChange] Basics.catalog with
      | .ok p => !(p.apply 7).toBool
      | .error _ => false) = true := by
    decide +kernel
  cases compiled : compile sampleOp none [sampleChange] Basics.catalog with
  | error e =>
    rw [compiled] at outcome
    cases outcome
  | ok p =>
    rw [compiled] at outcome
    have agrees := apply_eq_interpret rfl unique keeps compiled 7
    refine ⟨p, rfl, unique, keeps, rfl, agrees.1, ?_⟩
    cases run : p.apply 7 with
    | error e => exact ⟨e, rfl⟩
    | ok m =>
      change (!(p.apply 7).toBool) = true at outcome
      rw [run] at outcome
      cases outcome

end OpCycle.Plan
