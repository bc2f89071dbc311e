import OpCycle.Proofs.Template.WellFormed
import OpCycle.Proofs.Workload.Sections

/-! # Classification depends on the text alone
Two maps of bindings give the same reading of a text: the same error, or templates that differ in nothing but
what the names in braces stand for. So the bindings of an op, laid over those of its document, decide about
the specifications of its bind points and never about where bind points and captures stand.

* `Place`, `SameReading`: bind points as they are written, and templates that differ in what names stand for.
* `classification_independent`: all bindings give the same reading. -/

namespace OpCycle.Template

/-! ## Places -/

/-- A bind point as it is written. -/
inductive Place
  /-- A name in braces. -/
  | named (name : Text)
  /-- A specification in double braces. -/
  | inline (spec : Text)
  deriving DecidableEq, Repr

/-- What is written between the braces. -/
def Place.text : Place → Text
  | .named name => name
  | .inline spec => spec

/-- The bind point of a place under `bindings`. -/
def Place.point (bindings : Bindings) : Place → BindPoint
  | .named name => ⟨name, (bindings.find? name).getD []⟩
  | .inline spec => ⟨spec, spec⟩

/-- The bindings `b₁` and `b₂` hold the same under the name in a place; what is written inline asks for no
bindings. -/
def Place.TreatedAlike (b₁ b₂ : Bindings) : Place → Prop
  | .named name => b₁.find? name = b₂.find? name
  | .inline _ => True

/-- The place of a mark that makes a bind point. -/
def place? : Mark → Option Place
  | .named name => some (.named name)
  | .inline spec => some (.inline spec)
  | _ => none

/-- The anchor of a place is its text, whatever the bindings are: `(place.point bindings).anchor = place.text`. -/
@[simp] theorem Place.anchor_point (bindings : Bindings) (place : Place) :
    (place.point bindings).anchor = place.text := by
  cases place with
  | named name => rfl
  | inline spec => rfl

/-- Places that are treated alike have the same bind point: `place.point b₁ = place.point b₂`. -/
theorem Place.point_congr {b₁ b₂ : Bindings} {place : Place} (alike : place.TreatedAlike b₁ b₂) :
    place.point b₁ = place.point b₂ := by
  cases place with
  | named name =>
    have same : b₁.find? name = b₂.find? name := alike
    rw [Place.point, Place.point, same]
  | inline spec => rfl

/-- The bind points of marks are those of their places:
`marks.filterMap (bindPoint? bindings) = (marks.filterMap place?).map (Place.point bindings)`. -/
theorem filterMap_bindPoint?_eq (bindings : Bindings) (marks : List Mark) :
    marks.filterMap (bindPoint? bindings) = (marks.filterMap place?).map (Place.point bindings) := by
  rw [List.map_filterMap]
  congr 1
  funext mark
  cases mark <;> rfl

/-! ## Outlines -/

/-- A segment as it is written: its text, where a bind point shows its anchor, and the number of a bind
point. -/
def outline : Segment → Text × Option Nat
  | .literal text => (text, none)
  | .bind point index => (point.anchor, some index)

/-- Gluing a text to segments with the same outlines gives segments with the same outlines:
`(glue text first).map outline = (glue text second).map outline`. -/
theorem map_outline_glue {first second : List Segment} (same : first.map outline = second.map outline)
    (text : Text) : (glue text first).map outline = (glue text second).map outline := by
  by_cases empty : text = []
  · rw [empty, glue_nil, glue_nil, same]
  cases first with
  | nil =>
    rw [List.map_nil, eq_comm, List.map_eq_nil_iff] at same
    rw [same]
  | cons segment rest =>
    cases second with
    | nil => cases same
    | cons other others =>
      obtain ⟨head, tail⟩ := List.cons.inj same
      -- The heads are two texts or two bind points; a text and a bind point differ in their outlines.
      cases segment with
      | literal next =>
        cases other with
        | literal next' =>
          cases head
          rw [glue_literal empty, glue_literal empty, List.map_cons, List.map_cons, tail]
        | bind point index => cases head
      | bind point index =>
        cases other with
        | literal next => cases head
        | bind point' index' =>
          rw [glue_bind empty, glue_bind empty]
          exact congrArg (_ :: ·) same

/-- Marks are assembled into segments with the same outlines, whatever the bindings:
`(assemble b₁ index marks).map outline = (assemble b₂ index marks).map outline`. -/
theorem map_outline_assemble (b₁ b₂ : Bindings) (index : Nat) (marks : List Mark) :
    (assemble b₁ index marks).map outline = (assemble b₂ index marks).map outline := by
  induction marks generalizing index with
  | nil => rfl
  | cons mark rest ih =>
    cases mark with
    | literal text => exact map_outline_glue (ih index) text
    | capture c => exact map_outline_glue (ih index) c.name
    | named name => exact congrArg (_ :: ·) (ih (index + 1))
    | inline spec => exact congrArg (_ :: ·) (ih (index + 1))

/-! ## Two readings of a text -/

/-- Templates `t₁` and `t₂` of the text `raw`, under `b₁` and `b₂`, that differ in nothing but what named bind points
stand for. -/
structure SameReading (raw : Text) (b₁ b₂ : Bindings) (t₁ t₂ : Template) : Prop where
  /-- Both are templates of the text. -/
  source : t₁.raw = raw ∧ t₂.raw = raw
  /-- They have the same kind. -/
  kind : t₁.kind = t₂.kind
  /-- They have the same texts and the same numbered anchors, in the same order. -/
  segments : t₁.segments.map outline = t₂.segments.map outline
  /-- They have the same captures. -/
  captures : t₁.captures = t₂.captures
  /-- They have the same anchors: what is written at the places of the text. The bind points of a place that
  is written inline, or whose name the bindings treat alike, are the same. -/
  points : ∃ marks, scan raw = .ok marks ∧ WrittenAs marks raw ∧
    t₁.bindPoints.map BindPoint.anchor = (marks.filterMap place?).map Place.text ∧
    t₂.bindPoints.map BindPoint.anchor = (marks.filterMap place?).map Place.text ∧
    ∀ (i : Nat) (place : Place), (marks.filterMap place?)[i]? = some place → place.TreatedAlike b₁ b₂ →
      ∃ point, t₁.bindPoints[i]? = some point ∧ t₂.bindPoints[i]? = some point

/-- The text `raw` has the same error under `b₁` and `b₂`, or the same reading, by `SameReading`. -/
def ReadAlike (raw : Text) (b₁ b₂ : Bindings) : Prop :=
  (∃ e, classify raw b₁ = .error e ∧ classify raw b₂ = .error e) ∨
    ∃ t₁ t₂, classify raw b₁ = .ok t₁ ∧ classify raw b₂ = .ok t₂ ∧ SameReading raw b₁ b₂ t₁ t₂

/-- The kind of a template follows from the number of its segments and of its bind points: `t₁.kind = t₂.kind`. -/
theorem kind_congr {t₁ t₂ : Template} (segments : t₁.segments.length = t₂.segments.length)
    (points : t₁.bindPoints.length = t₂.bindPoints.length) : t₁.kind = t₂.kind := by
  have empty : t₁.bindPoints.isEmpty = t₂.bindPoints.isEmpty := by
    rw [Bool.eq_iff_iff, List.isEmpty_iff_length_eq_zero, List.isEmpty_iff_length_eq_zero, points]
  rw [kind, kind, segments, empty]

/-- A text that is scanned has the `SameReading` under all bindings. -/
theorem sameReading_of_scan {raw : Text} {marks : List Mark} (scanned : scan raw = .ok marks)
    (b₁ b₂ : Bindings) :
    SameReading raw b₁ b₂
      ⟨raw, assemble b₁ 0 marks, marks.filterMap (bindPoint? b₁), marks.filterMap capture?⟩
      ⟨raw, assemble b₂ 0 marks, marks.filterMap (bindPoint? b₂), marks.filterMap capture?⟩ := by
  have outlines := map_outline_assemble b₁ b₂ 0 marks
  -- `scan` reads no bindings, so both templates come from the same marks and differ in specs only.
  have anchors (bindings : Bindings) : (marks.filterMap (bindPoint? bindings)).map BindPoint.anchor =
      (marks.filterMap place?).map Place.text := by
    rw [filterMap_bindPoint?_eq, List.map_map]
    exact List.map_congr_left fun place _ => place.anchor_point bindings
  have found (bindings : Bindings) {i : Nat} {place : Place}
      (stands : (marks.filterMap place?)[i]? = some place) :
      (marks.filterMap (bindPoint? bindings))[i]? = some (place.point bindings) := by
    rw [filterMap_bindPoint?_eq, List.getElem?_map, stands, Option.map_some]
  exact {
    source := ⟨rfl, rfl⟩
    kind := by
      apply kind_congr
      · simpa only [List.length_map] using congrArg List.length outlines
      · simpa only [List.length_map] using congrArg List.length ((anchors b₁).trans (anchors b₂).symm)
    segments := outlines
    captures := rfl
    points := ⟨marks, scanned, scan_sound scanned, anchors b₁, anchors b₂, fun i place stands alike =>
      ⟨place.point b₁, found b₁ stands, (found b₂ stands).trans (by rw [Place.point_congr alike])⟩⟩ }

/-- Every text is read alike under all bindings: `ReadAlike raw b₁ b₂`. -/
theorem readAlike (raw : Text) (b₁ b₂ : Bindings) : ReadAlike raw b₁ b₂ := by
  cases scanned : scan raw with
  | error stop =>
    have fails (bindings : Bindings) :
        classify raw bindings = .error ⟨raw, raw.length - stop.left, stop.fault⟩ := by
      rw [classify, scanned]
    exact .inl ⟨_, fails b₁, fails b₂⟩
  | ok marks =>
    exact .inr ⟨_, _, classify_of_scan scanned b₁, classify_of_scan scanned b₂,
      sameReading_of_scan scanned b₁ b₂⟩

/-- Classification depends on the text alone. Any two maps of bindings `ReadAlike`: a text has the same error, at the
same position, or templates of the same kind with the same segments, captures and anchors, and the same specification
wherever it is written inline or the maps treat its name alike. So the bindings of an op, which are its own laid over
those of the document, change no bind point and no capture. -/
theorem classification_independent (raw : Text) :
    (∀ b₁ b₂, ReadAlike raw b₁ b₂) ∧
      ∀ document params name definition op, Workload.readOp document params name definition = .ok op →
        ReadAlike raw document op.bindings ∧
          ∀ anchor, op.bindings.find? anchor =
            ((Workload.ownBindings definition).find? anchor).or (document.find? anchor) := by
  refine ⟨readAlike raw, fun document params name definition op read => ?_⟩
  refine ⟨readAlike raw document op.bindings, fun anchor => ?_⟩
  rw [Workload.bindings_of_readOp read, SortedMap.find?_overlay]

/-- The definition of an op that binds two of the names of the sample text, one of them anew. -/
def sampleDefinition : Node :=
  .mapping [
    (.plain "stmt", .plain "select"),
    (.plain "bindings", .mapping [(.plain "id", .quoted "Hash()"), (.plain "lost", .quoted "Identity()")])]

/-- The op made of this definition reads the sample text as the document does, though it binds names
differently. -/
theorem classification_independent_sample :
    ∃ op, Workload.readOp sampleBindings ∅ "o" sampleDefinition = .ok op ∧
      ReadAlike sampleText sampleBindings op.bindings ∧
      sampleBindings.find? "id" = some "Mod(10)" ∧ op.bindings.find? "id" = some "Hash()" ∧
      sampleBindings.find? "lost" = none ∧ op.bindings.find? "lost" = some "Identity()" ∧
      op.bindings.find? "empty" = some [] := by
  obtain ⟨op, read⟩ : ∃ op, Workload.readOp sampleBindings ∅ "o" sampleDefinition = .ok op := ⟨_, rfl⟩
  obtain ⟨alike, bindings⟩ :=
    (classification_independent sampleText).2 sampleBindings ∅ "o" sampleDefinition op read
  refine ⟨op, read, alike, by decide +kernel, ?_, by decide +kernel, ?_, ?_⟩ <;>
    rw [bindings] <;> decide +kernel

end OpCycle.Template
