import OpCycle.Basics.Library
import OpCycle.Proofs.Plan.Compilation
import OpCycle.Proofs.Template.Assembly

/-! # Why an op template makes no plan
An op template without a body is refused whatever else is wrong with it. Otherwise its preprocessed fields
are made in order, and the first field at fault is the one that is reported: with the error of its
template if its text is none, and else with the first of its bind points that cannot be bound. A lone bind
point and a bind point among other text are reported alike.

* `Unbindable`, `Faulty`, `FaultOf`: what may be wrong with bind points and fields, and how it is reported.
* `compileFields_eq_error_iff`: the first faulty field is reported.
* `compile_first_fault`: an op template makes no plan exactly if it has a fault. -/

namespace OpCycle.Plan

namespace Binder

/-- A bind point that stands for no specification, or for one that `b.catalog` does not resolve. -/
def Unbindable (b : Binder) (point : BindPoint) : Prop :=
  point.spec = [] ∨ ∃ e, b.catalog.resolve point.spec b.allowUnsafe = .error e

/-- A raw field whose text is no template, or has a bind point that is `Unbindable`. -/
def Faulty (b : Binder) (entry : Text × Value) : Prop :=
  ∃ s, entry.2 = .text s ∧
    ((∃ e, Template.classify s b.bindings = .error e) ∨
      ∃ t, Template.classify s b.bindings = .ok t ∧ ∃ point ∈ t.bindPoints, b.Unbindable point)

/-- The error that a raw field with `Faulty` is reported with. -/
inductive FaultOf (b : Binder) : Text × Value → PlanError → Prop
  /-- Its text is no template. -/
  | template {name s : Text} {e : TemplateError} (refused : Template.classify s b.bindings = .error e) :
      FaultOf b (name, .text s) (.template e)
  /-- Its text is a template, and the first bind point in it that cannot be bound is this one. -/
  | unbound {name s : Text} {t : Template} {before after : List Segment} {point : BindPoint}
      {index : Nat} (classified : Template.classify s b.bindings = .ok t)
      (segments : t.segments = before ++ .bind point index :: after)
      (fine : ∀ earlier number, .bind earlier number ∈ before → ¬ b.Unbindable earlier)
      (stuck : b.Unbindable point) :
      FaultOf b (name, .text s) (.unbound ⟨name, point.spec, point.anchor⟩)

end Binder

variable {b : Binder} {name raw : Text} {t : Template}

/-! ## Bind points -/

/-- A look-up finds nothing exactly where the specification does not resolve:
`catalog.lookup spec allowUnsafe = none ↔ ∃ e, catalog.resolve spec allowUnsafe = .error e`. -/
theorem lookup_eq_none_iff {catalog : Catalog} {spec : Text} {allowUnsafe : Bool} :
    catalog.lookup spec allowUnsafe = none ↔ ∃ e, catalog.resolve spec allowUnsafe = .error e := by
  unfold Catalog.lookup
  cases catalog.resolve spec allowUnsafe with
  | error e => exact ⟨fun _ => ⟨e, rfl⟩, fun _ => rfl⟩
  | ok chain => exact ⟨fun h => (by cases h), fun ⟨_, h⟩ => (by cases h)⟩

/-- A bind point has no chain exactly if it cannot be bound, and the error shows what stands there:
`point.chain b.catalog b.allowUnsafe name = .error u ↔ b.Unbindable point ∧ u = ⟨name, point.spec, point.anchor⟩`. -/
theorem chain_eq_error_iff {point : BindPoint} {u : Unbound} :
    point.chain b.catalog b.allowUnsafe name = .error u ↔
      b.Unbindable point ∧ u = ⟨name, point.spec, point.anchor⟩ := by
  unfold BindPoint.chain Binder.Unbindable BindPoint.isResolved
  by_cases empty : point.spec = []
  · simp [empty, eq_comm]
  · rw [if_pos (by simpa using empty), ← lookup_eq_none_iff]
    cases b.catalog.lookup point.spec b.allowUnsafe with
    | some chain => simp [empty]
    | none => simp [empty, eq_comm]

/-- A segment makes no part exactly if it is a bind point that is `Unbindable`. -/
theorem part_eq_error_iff {segment : Segment} {u : Unbound} :
    segment.part b.catalog b.allowUnsafe name = .error u ↔
      ∃ point index, segment = .bind point index ∧ b.Unbindable point ∧
        u = ⟨name, point.spec, point.anchor⟩ := by
  cases segment with
  | literal text => simp [Segment.part]
  | bind point index =>
    rw [Segment.part, Outcome.map_eq_error, chain_eq_error_iff]
    simp

/-- The parts of segments cannot be made exactly if one is a bind point that is `Unbindable`, and the first such bind
point is reported. -/
theorem parts_eq_error_iff {segments : List Segment} {u : Unbound} :
    segments.mapM (Segment.part b.catalog b.allowUnsafe name) = .error u ↔
      ∃ before point index after, segments = before ++ .bind point index :: after ∧
        (∀ earlier number, .bind earlier number ∈ before → ¬ b.Unbindable earlier) ∧
        b.Unbindable point ∧ u = ⟨name, point.spec, point.anchor⟩ := by
  -- A literal or a capture is never at fault, so the first fault is that of the first unbindable point.
  have fine_iff (before : List Segment) :
      (∀ earlier ∈ before, ∃ part, earlier.part b.catalog b.allowUnsafe name = .ok part) ↔
        ∀ earlier number, .bind earlier number ∈ before → ¬ b.Unbindable earlier := by
    constructor
    · intro fine earlier number mem stuck
      exact Outcome.exists_ok_iff.1 (fine _ mem)
        ⟨_, part_eq_error_iff.2 ⟨earlier, number, rfl, stuck, rfl⟩⟩
    · intro fine segment mem
      refine Outcome.exists_ok_iff.2 ?_
      rintro ⟨e, failed⟩
      obtain ⟨earlier, number, rfl, stuck, -⟩ := part_eq_error_iff.1 failed
      exact fine earlier number mem stuck
  rw [Outcome.mapM_eq_error_iff]
  constructor
  · rintro ⟨before, segment, after, split, fine, failed⟩
    obtain ⟨point, index, rfl, stuck, reported⟩ := part_eq_error_iff.1 failed
    exact ⟨before, point, index, after, split, (fine_iff before).1 fine, stuck, reported⟩
  · rintro ⟨before, point, index, after, split, fine, stuck, reported⟩
    exact ⟨before, _, after, split, (fine_iff before).2 fine,
      part_eq_error_iff.2 ⟨point, index, rfl, stuck, reported⟩⟩

/-! ## Fields -/

/-- A text cannot be bound to its field exactly if the parts of its segments cannot be made, with the same error,
whether the text is joined at each cycle or is a lone bind point:
`bindTemplate b name raw t = .error u ↔ t.segments.mapM (Segment.part b.catalog b.allowUnsafe name) = .error u`. -/
theorem bindTemplate_eq_error_iff (classified : Template.classify raw b.bindings = .ok t)
    {u : Unbound} :
    bindTemplate b name raw t = .error u ↔
      t.segments.mapM (Segment.part b.catalog b.allowUnsafe name) = .error u := by
  cases kind : t.kind with
  | literal =>
    -- There is no bind point that could fail on either side.
    have none := Template.kind_eq_literal_iff.1 kind
    rw [bindTemplate, kind, parts_eq_error_iff]
    constructor
    · intro h
      cases h
    · rintro ⟨before, point, index, after, split, -⟩
      have mem := Template.mem_bindPoints_of_segments classified split
      rw [none] at mem
      cases mem
  | bindref =>
    obtain ⟨point, segments, points⟩ := Template.bindPoints_of_bindref classified kind
    -- The only segment is the bind point, so the run over the segments is its chain.
    rw [bindTemplate, kind, points, segments, List.mapM_cons, List.mapM_nil, Segment.part,
      Outcome.bind_eq_error, Outcome.map_eq_error, Outcome.map_eq_error]
    constructor
    · exact .inl
    · rintro (failed | ⟨_, -, h⟩)
      · exact failed
      · cases h
  | concat =>
    rw [bindTemplate, kind]
    show (t.joined b.catalog b.allowUnsafe name).map FieldBody.bound = .error u ↔ _
    rw [Outcome.map_eq_error, Template.joined, Outcome.bind_eq_error]
    constructor
    · rintro (failed | ⟨_, -, h⟩)
      · exact failed
      · cases h
    · exact .inl

/-- A raw field that is no text is not faulty: `∃ s, entry.2 = .text s`. -/
theorem text_of_faultOf {entry : Text × Value} {e : PlanError} (fault : b.FaultOf entry e) :
    ∃ s, entry.2 = .text s := by
  cases fault <;> exact ⟨_, rfl⟩

/-- A raw field makes no field exactly if it is faulty, and fails with what is wrong with it:
`compileField b name raw = .error e ↔ b.FaultOf (name, raw) e`. -/
theorem compileField_eq_error_iff {raw : Value} {e : PlanError} :
    compileField b name raw = .error e ↔ b.FaultOf (name, raw) e := by
  cases raw with
  | text s =>
    rw [compileField]
    -- A fault of the text comes before any of its bind points, so the two never compete.
    cases classified : Template.classify s b.bindings with
    | error refused =>
      constructor
      · intro h
        cases h
        exact .template classified
      · intro fault
        cases fault with
        | template refused' =>
          cases classified.symm.trans refused'
          rfl
        | unbound classified' => cases classified.symm.trans classified'
    | ok t =>
      rw [Outcome.mapError_ok, Outcome.ok_bind, Outcome.bind_eq_error]
      constructor
      · rintro (h | ⟨body, -, h⟩)
        · obtain ⟨u, failed, rfl⟩ := Outcome.mapError_eq_error.1 h
          obtain ⟨before, point, index, after, split, fine, stuck, rfl⟩ :=
            parts_eq_error_iff.1 ((bindTemplate_eq_error_iff classified).1 failed)
          exact .unbound classified split fine stuck
        · cases h
      · intro fault
        cases fault with
        | template refused => cases classified.symm.trans refused
        | unbound classified' split fine stuck =>
          cases classified.symm.trans classified'
          refine .inl (Outcome.mapError_eq_error.2 ⟨_, ?_, rfl⟩)
          rw [bindTemplate_eq_error_iff classified, parts_eq_error_iff]
          exact ⟨_, _, _, _, split, fine, stuck, rfl⟩
  | _ =>
    constructor
    · intro h
      cases h
    · intro fault
      obtain ⟨s, h⟩ := text_of_faultOf fault
      cases h

/-- A raw field is faulty exactly if something is reported about it: `b.Faulty entry ↔ ∃ e, b.FaultOf entry e`. -/
theorem faulty_iff {entry : Text × Value} : b.Faulty entry ↔ ∃ e, b.FaultOf entry e := by
  obtain ⟨name, raw⟩ := entry
  constructor
  · rintro ⟨s, rfl, ⟨e, refused⟩ | ⟨t, classified, point, mem, stuck⟩⟩
    · exact ⟨_, .template refused⟩
    · -- Some bind point cannot be bound, so the run over the segments fails, at the first such.
      obtain ⟨index, mem⟩ := (Template.mem_bindPoints_iff classified).1 mem
      have fails : (Segment.bind point index).part b.catalog b.allowUnsafe name =
          .error ⟨name, point.spec, point.anchor⟩ :=
        part_eq_error_iff.2 ⟨point, index, rfl, stuck, rfl⟩
      obtain ⟨u, failed⟩ := Outcome.mapM_fails_iff.2 ⟨_, mem, _, fails⟩
      obtain ⟨before, first, number, after, split, fine, stuck, -⟩ := parts_eq_error_iff.1 failed
      exact ⟨_, .unbound classified split fine stuck⟩
  · rintro ⟨e, fault⟩
    -- Each fault names its cause: the template itself, or the first point without a chain.
    cases fault with
    | template refused => exact ⟨_, rfl, .inl ⟨_, refused⟩⟩
    | unbound classified split fine stuck =>
      have mem := Template.mem_bindPoints_of_segments classified split
      exact ⟨_, rfl, .inr ⟨_, classified, _, mem, stuck⟩⟩

/-- A raw field makes a field exactly if it is not faulty:
`(∃ made, compileField b name raw = .ok made) ↔ ¬ b.Faulty (name, raw)`. -/
theorem compileField_succeeds_iff {raw : Value} :
    (∃ made, compileField b name raw = .ok made) ↔ ¬ b.Faulty (name, raw) := by
  rw [Outcome.exists_ok_iff, faulty_iff]
  simp only [compileField_eq_error_iff]

/-- Raw fields cannot be made exactly if one is faulty:
`(∃ e, compileFields b entries = .error e) ↔ ∃ entry ∈ entries, b.Faulty entry`. -/
theorem compileFields_fails_iff {entries : List (Text × Value)} :
    (∃ e, compileFields b entries = .error e) ↔ ∃ entry ∈ entries, b.Faulty entry := by
  simp only [compileFields_eq_mapM, Outcome.map_eq_error, Outcome.mapM_fails_iff,
    compileField_eq_error_iff, ← faulty_iff]

/-- Raw fields that cannot be made fail with the `FaultOf` the first one that is `Faulty`. -/
theorem compileFields_eq_error_iff {entries : List (Text × Value)} {e : PlanError} :
    compileFields b entries = .error e ↔
      ∃ before entry after, entries = before ++ entry :: after ∧
        (∀ earlier ∈ before, ¬ b.Faulty earlier) ∧ b.FaultOf entry e := by
  simp only [compileFields_eq_mapM, Outcome.map_eq_error, Outcome.mapM_eq_error_iff,
    compileField_eq_error_iff, compileField_succeeds_iff]

/-! ## Op templates -/

/-- An op template with a body makes a plan exactly if `compileFields` makes its preprocessed fields. -/
theorem compile_eq_error_iff {op : Op} {activity : Option Activity} {preprocessors : List Preprocessor}
    {catalog : Catalog} {raw : OrderedMap Value} (body : op.fields = some raw) {e : PlanError} :
    compile op activity preprocessors catalog = .error e ↔
      compileFields (binderOf op activity catalog) (preprocess preprocessors raw).entries = .error e := by
  rw [compile, body]
  show (compileFields (binderOf op activity catalog) (preprocess preprocessors raw).entries >>= _) = _ ↔ _
  cases compileFields (binderOf op activity catalog) (preprocess preprocessors raw).entries with
  | error e' =>
    rw [Outcome.error_bind, Except.error.injEq, Except.error.injEq]
  | ok made => exact ⟨fun h => (by cases h), fun h => (by cases h)⟩

/-- What is reported about a field is never a missing body: `¬ b.FaultOf entry (.noBody op)`. -/
theorem not_faultOf_noBody {entry : Text × Value} {op : Text} : ¬ b.FaultOf entry (.noBody op) := by
  intro fault
  cases fault

/-- The specification reported in `.unbound` is what the bindings hold under its anchor, or empty where they hold none
that is not empty, or the anchor itself where it is written inline. -/
theorem spec_of_faultOf {entry : Text × Value} {u : Unbound} (fault : b.FaultOf entry (.unbound u)) :
    (u.spec = [] → ∀ spec, b.bindings.find? u.anchor = some spec → spec = []) ∧
      (u.spec ≠ [] → b.bindings.find? u.anchor = some u.spec ∨ u.anchor = u.spec) := by
  cases fault with
  | @unbound _ s t before after point index classified split fine stuck =>
    have mem := Template.mem_bindPoints_of_segments classified split
    rcases Template.spec_of_mem_bindPoints classified mem with held | ⟨inline, nonempty⟩
    · cases found : b.bindings.find? point.anchor with
      | none => simp [held, found]
      | some spec => simp [held, found]
    · exact ⟨fun empty => absurd empty nonempty, fun _ => .inr inline.symm⟩

/-- **Making a plan fails exactly when it must, with the first fault.** An op template without a body is refused with
`.noBody`, whatever its preprocessors, and one with a body never is. One with a body is refused exactly if a
preprocessed field is `Faulty`, with the `FaultOf` the first faulty one; and the specification of a bind point so
reported is empty exactly where its anchor stands for none. -/
theorem compile_first_fault (op : Op) (activity : Option Activity)
    (preprocessors : List Preprocessor) (catalog : Catalog) :
    ((∃ name, compile op activity preprocessors catalog = .error (.noBody name)) ↔ op.fields = none) ∧
      (op.fields = none → compile op activity preprocessors catalog = .error (.noBody op.name)) ∧
      ∀ raw, op.fields = some raw →
        ((∃ e, compile op activity preprocessors catalog = .error e) ↔
          ∃ entry ∈ (preprocess preprocessors raw).entries,
            (binderOf op activity catalog).Faulty entry) ∧
        (∀ e, compile op activity preprocessors catalog = .error e ↔
          ∃ before entry after, (preprocess preprocessors raw).entries = before ++ entry :: after ∧
            (∀ earlier ∈ before, ¬ (binderOf op activity catalog).Faulty earlier) ∧
            (binderOf op activity catalog).FaultOf entry e) ∧
        ∀ u, compile op activity preprocessors catalog = .error (.unbound u) →
          (u.spec = [] → ∀ spec, op.bindings.find? u.anchor = some spec → spec = []) ∧
          (u.spec ≠ [] → op.bindings.find? u.anchor = some u.spec ∨ u.anchor = u.spec) := by
  have noBody : op.fields = none →
      compile op activity preprocessors catalog = .error (.noBody op.name) := by
    intro none
    rw [compile, none]
  refine ⟨⟨?_, fun none => ⟨_, noBody none⟩⟩, noBody, ?_⟩
  · rintro ⟨name, refused⟩
    cases body : op.fields with
    | none => rfl
    | some raw =>
      rw [compile_eq_error_iff body, compileFields_eq_error_iff] at refused
      obtain ⟨_, _, _, -, -, fault⟩ := refused
      exact absurd fault not_faultOf_noBody
  · -- With a body the three clauses are those of `compileFields`.
    intro raw body
    refine ⟨?_, ?_, ?_⟩
    · simp only [compile_eq_error_iff body, compileFields_fails_iff]
    · intro e
      rw [compile_eq_error_iff body, compileFields_eq_error_iff]
    · intro u refused
      rw [compile_eq_error_iff body, compileFields_eq_error_iff] at refused
      obtain ⟨_, _, _, -, -, fault⟩ := refused
      exact spec_of_faultOf fault

/-- An op whose third field names a binding that is empty, and whose fourth is no template. -/
def faultyOp : Op :=
  { name := "faulty",
    fields := some ⟨[("note", .text "\\[[x as y]"), ("key", .text "\x7bid\x7d"),
      ("all", .text "\x7bid\x7d-\x7bgone\x7d"), ("open", .text "\x7b\x7b")]⟩,
    bindings := .ofList [("id", "Mod(10)"), ("gone", [])], params := ∅, tags := ∅ }

/-- The third field of this op is the one that is reported, with an empty specification. -/
theorem compile_first_fault_sample :
    ∃ raw, faultyOp.fields = some raw ∧
      compile faultyOp none [] Basics.catalog = .error (.unbound ⟨"all", [], "gone"⟩) ∧
      (∃ entry ∈ raw.entries, (binderOf faultyOp none Basics.catalog).Faulty entry) ∧
      ∀ spec, faultyOp.bindings.find? "gone" = some spec → spec = [] := by
  have outcome : (match compile faultyOp none [] Basics.catalog with
      | .ok _ => false
      | .error e => e = .unbound ⟨"all", [], "gone"⟩) = true := by
    decide +kernel
  cases compiled : compile faultyOp none [] Basics.catalog with
  | ok p =>
    rw [compiled] at outcome
    cases outcome
  | error e =>
    rw [compiled] at outcome
    cases of_decide_eq_true outcome
    obtain ⟨fails, -, reported⟩ := (compile_first_fault faultyOp none [] Basics.catalog).2.2 _ rfl
    exact ⟨_, rfl, rfl, fails.1 ⟨_, compiled⟩, (reported _ compiled).1 rfl⟩

end OpCycle.Plan
