import OpCycle.Plan.Shape
import OpCycle.Proofs.Catalog.ThreadSafety
import OpCycle.Proofs.Plan.Faults
import OpCycle.Proofs.Plan.Interpretation

/-! # Plans without unsafe functions
A run that does not allow unsafe functions has none behind any field of a plan, and none behind an array
of bind points that the plan makes. Allowing them changes nothing about an op template that makes a plan
without, and the op templates that make one only then have a bind point with an unsafe call.

* `BindsPoint`: the bind points of an op template.
* `compile_permission`: without unsafe calls the permission makes no difference.
* `forbidding_filters`: forbidding unsafe functions is enforced, and only filters. -/

namespace OpCycle.Plan

/-- The `point` is a bind point in the text of one of the raw `fields`. -/
def BindsPoint (bindings : Bindings) (fields : OrderedMap Value) (point : BindPoint) : Prop :=
  ∃ name s t, (name, Value.text s) ∈ fields.entries ∧ Template.classify s bindings = .ok t ∧
    point ∈ t.bindPoints

variable {catalog : Catalog} {bindings : Bindings}

/-! ## What the permission leaves alone -/

/-- The permission makes no difference to a bind point without unsafe calls:
`point.chain catalog before field = point.chain catalog after field`. -/
theorem chain_permission {point : BindPoint} (fine : ¬ catalog.UnsafeSpec point.spec) (field : Text)
    (before after : Bool) :
    point.chain catalog before field = point.chain catalog after field := by
  unfold BindPoint.chain Catalog.lookup
  rw [Catalog.resolve_permission fine before after]

/-- The permission makes no difference to segments none of whose bind points has an unsafe call:
`segments.mapM (Segment.part catalog before field) = segments.mapM (Segment.part catalog after field)`. -/
theorem parts_permission {segments : List Segment}
    (fine : ∀ point index, .bind point index ∈ segments → ¬ catalog.UnsafeSpec point.spec) (field : Text)
    (before after : Bool) :
    segments.mapM (Segment.part catalog before field) =
      segments.mapM (Segment.part catalog after field) := by
  refine Outcome.mapM_congr fun segment mem => ?_
  cases segment with
  | literal text => rfl
  | bind point index =>
    rw [Segment.part, Segment.part, chain_permission (fine point index mem) field before after]

/-- The permission makes no difference to a text none of whose bind points has an unsafe call:
`bindTemplate ⟨catalog, before, bindings⟩ name raw t = bindTemplate ⟨catalog, after, bindings⟩ name raw t`. -/
theorem bindTemplate_permission {raw : Text} {t : Template}
    (classified : Template.classify raw bindings = .ok t)
    (fine : ∀ point ∈ t.bindPoints, ¬ catalog.UnsafeSpec point.spec) (name : Text) (before after : Bool) :
    bindTemplate ⟨catalog, before, bindings⟩ name raw t =
      bindTemplate ⟨catalog, after, bindings⟩ name raw t := by
  unfold bindTemplate
  cases t.kind with
  | literal => rfl
  | bindref =>
    cases points : t.bindPoints with
    | nil => rfl
    | cons point rest =>
      have shaky := fine point (points ▸ List.mem_cons_self)
      exact congrArg (Except.map _) (chain_permission shaky name before after)
  | concat =>
    have among (point : BindPoint) (index : Nat) (mem : .bind point index ∈ t.segments) :
        ¬ catalog.UnsafeSpec point.spec :=
      fine point ((Template.mem_bindPoints_iff classified).2 ⟨index, mem⟩)
    have parts := parts_permission among name before after
    simp only [Template.joined, parts]

/-- The permission makes no difference to raw fields none of whose bind points has an unsafe call: `compileFields
⟨catalog, before, bindings⟩ fields.entries = compileFields ⟨catalog, after, bindings⟩ fields.entries`. -/
theorem compileFields_permission {fields : OrderedMap Value}
    (fine : ∀ point, BindsPoint bindings fields point → ¬ catalog.UnsafeSpec point.spec)
    (before after : Bool) :
    compileFields ⟨catalog, before, bindings⟩ fields.entries =
      compileFields ⟨catalog, after, bindings⟩ fields.entries := by
  rw [compileFields_eq_mapM, compileFields_eq_mapM]
  refine congrArg (Except.map _) (Outcome.mapM_congr ?_)
  rintro ⟨name, raw⟩ mem
  cases raw with
  | text s =>
    dsimp only [compileField]
    cases classified : Template.classify s bindings with
    | error e => rfl
    | ok t =>
      have same := bindTemplate_permission classified
        (fun point among => fine point ⟨name, s, t, mem, classified, among⟩) name before after
      rw [Outcome.mapError_ok, Outcome.ok_bind, Outcome.ok_bind, same]
  | _ => rfl

/-- Another run makes the same plan of an op template to which `UnsafeSpec` does not apply, or fails alike. -/
theorem compile_permission {op : Op} {raw : OrderedMap Value} (body : op.fields = some raw)
    {preprocessors : List Preprocessor}
    (fine : ∀ point, BindsPoint op.bindings (preprocess preprocessors raw) point →
      ¬ catalog.UnsafeSpec point.spec) (before after : Option Activity) :
    compile op after preprocessors catalog =
      (compile op before preprocessors catalog).map fun p =>
        { p with activity := after, allowUnsafe := allowsUnsafe after } := by
  have same := compileFields_permission fine (allowsUnsafe after) (allowsUnsafe before)
  rw [compile, compile, body]
  change (compileFields ⟨catalog, allowsUnsafe after, op.bindings⟩ (preprocess preprocessors raw).entries
    >>= _) = (compileFields ⟨catalog, allowsUnsafe before, op.bindings⟩
      (preprocess preprocessors raw).entries >>= _).map _
  rw [same]
  cases compileFields ⟨catalog, allowsUnsafe before, op.bindings⟩
      (preprocess preprocessors raw).entries with
  | error e => rfl
  | ok made => rfl

/-! ## What succeeds without the permission -/

/-- Without the permission the bind points of raw fields that can be made have safe calls only:
`catalog.SafeSpec point.spec`. -/
theorem safe_of_compileFields {fields : OrderedMap Value} {made : List Field × List (List Capture)}
    (compiled : compileFields ⟨catalog, false, bindings⟩ fields.entries = .ok made) {point : BindPoint}
    (binds : BindsPoint bindings fields point) : catalog.SafeSpec point.spec := by
  obtain ⟨name, s, t, mem, classified, among⟩ := binds
  have sound : ¬ (Binder.mk catalog false bindings).Faulty (name, .text s) := by
    intro faulty
    obtain ⟨e, failed⟩ := compileFields_fails_iff.2 ⟨_, mem, faulty⟩
    cases compiled.symm.trans failed
  have resolves : ∃ chain, catalog.resolve point.spec false = .ok chain := by
    refine Outcome.exists_ok_iff.2 fun stuck => sound ?_
    exact ⟨s, rfl, .inr ⟨t, classified, point, among, .inr stuck⟩⟩
  obtain ⟨chain, resolved⟩ := resolves
  exact Catalog.safe_of_resolve resolved

/-- Without the permission an array of bind points has safe calls only:
`∀ point ∈ points, catalog.SafeSpec point.spec`. -/
theorem safe_of_pointShape {p : Plan} (forbids : p.allowUnsafe = false) {points : List BindPoint}
    {shape : ArrayShape} (made : p.pointShape points catalog = .ok shape) :
    ∀ point ∈ points, catalog.SafeSpec point.spec := by
  intro point mem
  obtain ⟨chains, bound, -⟩ := Outcome.bind_eq_ok.1 made
  obtain ⟨chain, bound⟩ := Outcome.ok_of_mem bound mem
  rw [forbids] at bound
  exact Catalog.safe_of_resolve (chain_eq_ok bound)

/-- The permission makes no difference to an array of bind points without unsafe calls:
`p.pointShape points catalog = q.pointShape points catalog`. -/
theorem pointShape_permission {points : List BindPoint}
    (fine : ∀ point ∈ points, ¬ catalog.UnsafeSpec point.spec) (p q : Plan) :
    p.pointShape points catalog = q.pointShape points catalog := by
  unfold pointShape
  rw [Outcome.mapM_congr fun point mem =>
    chain_permission (fine point mem) point.anchor p.allowUnsafe q.allowUnsafe]

/-- **Forbidding unsafe functions is enforced everywhere and only filters.** What a run that does not allow unsafe
functions makes a plan of has the property `SafeSpec`, in the texts of its fields and in every array of bind points
made from the plan; any other run, one that allows unsafe functions among them, makes a plan of it too, with the same
arrays and the same values at every cycle. And where the first run makes no plan but the other does, `UnsafeSpec`
holds of a bind point. -/
theorem forbidding_filters (op : Op) (preprocessors : List Preprocessor) (catalog : Catalog)
    {strict : Option Activity} (forbids : allowsUnsafe strict = false) (lenient : Option Activity) :
    (∀ p, compile op strict preprocessors catalog = .ok p →
      (∃ raw, op.fields = some raw ∧
        ∀ point, BindsPoint op.bindings (preprocess preprocessors raw) point →
          catalog.SafeSpec point.spec) ∧
      (∀ points other shape, p.pointShape points other = .ok shape →
        ∀ point ∈ points, other.SafeSpec point.spec) ∧
      ∃ q, compile op lenient preprocessors catalog = .ok q ∧
        (∀ cycle, q.apply cycle = p.apply cycle) ∧
        ∀ points other shape, p.pointShape points other = .ok shape →
          q.pointShape points other = .ok shape) ∧
    ∀ q e, compile op lenient preprocessors catalog = .ok q →
      compile op strict preprocessors catalog = .error e →
      ∃ raw point, op.fields = some raw ∧
        BindsPoint op.bindings (preprocess preprocessors raw) point ∧
        catalog.UnsafeSpec point.spec := by
  constructor
  · intro p compiled
    obtain ⟨raw, fields, captures, body, made, plan⟩ := compile_eq_ok compiled
    rw [binderOf, forbids] at made
    have safe (point : BindPoint)
        (binds : BindsPoint op.bindings (preprocess preprocessors raw) point) :
        catalog.SafeSpec point.spec := safe_of_compileFields made binds
    have shapes {points : List BindPoint} {other : Catalog} {shape : ArrayShape}
        (shaped : p.pointShape points other = .ok shape) :
        ∀ point ∈ points, other.SafeSpec point.spec :=
      safe_of_pointShape (by rw [plan]; exact forbids) shaped
    have same := compile_permission body (fun point binds => (safe point binds).not_unsafeSpec) strict lenient
    rw [compiled] at same
    refine ⟨⟨raw, body, safe⟩, fun _ _ _ => shapes, _, same, fun cycle => rfl, ?_⟩
    intro points other shape shaped
    exact (pointShape_permission (fun point mem => (shapes shaped point mem).not_unsafeSpec) _ _).trans shaped
  · intro q e compiled refused
    obtain ⟨raw, _, _, body, -, -⟩ := compile_eq_ok compiled
    refine Classical.byContradiction fun none => ?_
    have fine (point : BindPoint)
        (binds : BindsPoint op.bindings (preprocess preprocessors raw) point) :
        ¬ catalog.UnsafeSpec point.spec := fun shaky => none ⟨raw, point, body, binds, shaky⟩
    -- Without unsafe calls the two runs would agree.
    have same := compile_permission body fine strict lenient
    rw [refused, compiled] at same
    cases same

/-- The built-in functions, and `Counter`, which is not safe to share. -/
def counterCatalog : Catalog :=
  Basics.catalog.define { Basics.identity with name := "Counter", threadSafe := false }

/-- An op with a joined text whose bind point has the specification `spec`. -/
def counterOp (spec : Text) : Op :=
  { name := "count", fields := some (.ofList [("key", .text "k-\x7bid\x7d"), ("size", .int 4)]),
    bindings := .ofList [("id", spec)], params := ∅, tags := ∅ }

/-- A run with `unsafeParameter` set. -/
def unsafeRun : Activity := ⟨.ofList [(unsafeParameter, .text "true")]⟩

/-- With a safe call both runs make a plan, with the same values; with an unsafe one only the run that
allows it does, and the call is found. -/
theorem forbidding_filters_sample :
    allowsUnsafe none = false ∧ allowsUnsafe (some unsafeRun) = true ∧
      (∃ p q, compile (counterOp "Identity()") none [] counterCatalog = .ok p ∧
        compile (counterOp "Identity()") (some unsafeRun) [] counterCatalog = .ok q ∧
        ∀ cycle, q.apply cycle = p.apply cycle) ∧
      ∃ q e, compile (counterOp "Mod(3); Counter()") (some unsafeRun) [] counterCatalog = .ok q ∧
        compile (counterOp "Mod(3); Counter()") none [] counterCatalog = .error e ∧
        ∃ raw point, (counterOp "Mod(3); Counter()").fields = some raw ∧
          BindsPoint (counterOp "Mod(3); Counter()").bindings raw point ∧
          counterCatalog.UnsafeSpec point.spec := by
  have forbids : allowsUnsafe none = false := rfl
  refine ⟨forbids, by decide +kernel, ?_, ?_⟩
  · have makes : (compile (counterOp "Identity()") none [] counterCatalog).toOption.any
        (fun _ => true) = true := by
      decide +kernel
    obtain ⟨p, strict, -⟩ := Outcome.exists_ok_of_test _ makes
    have filters := forbidding_filters (counterOp "Identity()") [] counterCatalog forbids (some unsafeRun)
    obtain ⟨-, -, q, lenient, same, -⟩ := filters.1 p strict
    exact ⟨p, q, strict, lenient, same⟩
  · have refuses : (compile (counterOp "Mod(3); Counter()") none [] counterCatalog).toBool = false := by
      decide +kernel
    have makes : (compile (counterOp "Mod(3); Counter()") (some unsafeRun) [] counterCatalog).toOption.any
        (fun _ => true) = true := by
      decide +kernel
    obtain ⟨e, strict⟩ := Outcome.exists_error_of_toBool refuses
    obtain ⟨q, lenient, -⟩ := Outcome.exists_ok_of_test _ makes
    have filters := forbidding_filters (counterOp "Mod(3); Counter()") [] counterCatalog forbids
      (some unsafeRun)
    exact ⟨q, e, lenient, strict, filters.2 q e lenient strict⟩

end OpCycle.Plan
