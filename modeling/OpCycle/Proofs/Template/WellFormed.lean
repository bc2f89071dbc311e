import OpCycle.Proofs.Template.Marks

/-! # Classified templates are well formed
In the segments of a classified template text and bind points are kept apart: no text is empty, none stands
next to another one, and the bind points are numbered in order. Everything that is read off a template rests
on that.

* `Separated`, `WellFormed`: what holds of the segments, and of the template.
* `classify_wellFormed`: every classified template has it. -/

namespace OpCycle.Template

/-! ## Segments -/

/-- The `segments` have no empty text and no text next to another one. -/
structure Separated (segments : List Segment) : Prop where
  /-- No text is empty. -/
  nonempty : ∀ text, .literal text ∈ segments → text ≠ []
  /-- No text stands next to another one. -/
  apart : ∀ before first second after, segments ≠ before ++ .literal first :: .literal second :: after

/-- No segments are separated: `Separated []`. -/
theorem separated_nil : Separated [] := by
  refine ⟨fun text mem => absurd mem List.not_mem_nil, fun before first second after same => ?_⟩
  exact absurd same.symm (List.append_ne_nil_of_right_ne_nil _ (List.cons_ne_nil _ _))

/-- A bind point may stand in front of segments: `Separated (.bind point index :: segments)`. -/
theorem Separated.bind {segments : List Segment} (h : Separated segments) (point : BindPoint) (index : Nat) :
    Separated (.bind point index :: segments) := by
  constructor
  · intro text mem
    rcases List.mem_cons.1 mem with same | mem
    · cases same
    · exact h.nonempty text mem
  · intro before first second after same
    cases before with
    | nil => cases same
    | cons segment before => exact h.apart before first second after (List.cons.inj same).2

/-- A text that is not empty may stand in front of segments that do not start with one:
`Separated (.literal text :: segments)`. -/
theorem Separated.literal {segments : List Segment} (h : Separated segments) {text : Text}
    (nonempty : text ≠ []) (stop : ∀ next rest, segments ≠ .literal next :: rest) :
    Separated (.literal text :: segments) := by
  constructor
  · intro other mem
    rcases List.mem_cons.1 mem with same | mem
    · cases same
      exact nonempty
    · exact h.nonempty other mem
  · intro before first second after same
    cases before with
    | nil => exact stop second after (List.cons.inj same).2
    | cons segment before => exact h.apart before first second after (List.cons.inj same).2

/-- What stands behind a segment is separated as well: `Separated segments`. -/
theorem Separated.tail {segment : Segment} {segments : List Segment} (h : Separated (segment :: segments)) :
    Separated segments := by
  refine ⟨fun text mem => h.nonempty text (List.mem_cons_of_mem _ mem), ?_⟩
  intro before first second after same
  exact h.apart (segment :: before) first second after (congrArg (segment :: ·) same)

/-- Gluing keeps text and bind points apart: `Separated (glue text segments)`. -/
theorem Separated.glue {segments : List Segment} (h : Separated segments) (text : Text) :
    Separated (glue text segments) := by
  by_cases empty : text = []
  · rw [empty, glue_nil]
    exact h
  cases segments with
  | nil =>
    rw [glue_of_nil empty]
    exact separated_nil.literal empty fun next rest same => by cases same
  | cons segment rest =>
    cases segment with
    | literal next =>
      -- The two texts become one, and what follows them starts with no text.
      rw [glue_literal empty]
      refine h.tail.literal (List.append_ne_nil_of_left_ne_nil empty next) ?_
      rintro other after rfl
      exact h.apart [] next other after rfl
    | bind point index =>
      rw [glue_bind empty]
      exact h.literal empty fun next rest same => by cases same

/-- Assembled segments are separated: `Separated (assemble bindings index marks)`. -/
theorem separated_assemble (bindings : Bindings) (index : Nat) (marks : List Mark) :
    Separated (assemble bindings index marks) := by
  induction marks generalizing index with
  | nil => exact separated_nil
  | cons mark rest ih =>
    cases mark with
    | literal text => exact (ih index).glue text
    | capture c => exact (ih index).glue c.name
    | named name => exact (ih (index + 1)).bind _ index
    | inline spec => exact (ih (index + 1)).bind _ index

/-! ## Text -/

/-- What a mark leaves in the text of a template. -/
def Mark.shown : Mark → Text
  | .literal text => text
  | .named name => name
  | .inline spec => spec
  | .capture c => c.name

/-- Gluing puts its text in front:
`(glue text segments).flatMap segmentText = text ++ segments.flatMap segmentText`. -/
theorem flatMap_segmentText_glue (text : Text) (segments : List Segment) :
    (glue text segments).flatMap segmentText = text ++ segments.flatMap segmentText := by
  by_cases empty : text = []
  · rw [empty, glue_nil, List.nil_append]
  cases segments with
  | nil => rw [glue_of_nil empty]; rfl
  | cons segment rest =>
    cases segment with
    | literal next =>
      rw [glue_literal empty, List.flatMap_cons, List.flatMap_cons, ← List.append_assoc]
      rfl
    | bind point index => rw [glue_bind empty]; rfl

/-- The text of assembled segments is what the marks leave:
`(assemble bindings index marks).flatMap segmentText = marks.flatMap Mark.shown`. -/
theorem flatMap_segmentText_assemble (bindings : Bindings) (index : Nat) (marks : List Mark) :
    (assemble bindings index marks).flatMap segmentText = marks.flatMap Mark.shown := by
  induction marks generalizing index with
  | nil => rfl
  | cons mark rest ih =>
    rw [List.flatMap_cons]
    cases mark with
    | literal text => rw [assemble, flatMap_segmentText_glue, ih]; rfl
    | capture c => rw [assemble, flatMap_segmentText_glue, ih]; rfl
    | named name => rw [assemble, List.flatMap_cons, ih]; rfl
    | inline spec => rw [assemble, List.flatMap_cons, ih]; rfl

/-- A mark that is neither bind point nor capture, written without a backslash, leaves what was written:
`mark.shown = text`. -/
theorem Mark.Written.shown_eq {mark : Mark} {text : Text} (written : mark.Written text) {bindings : Bindings}
    (noPoint : bindPoint? bindings mark = none) (noCapture : capture? mark = none)
    (unescaped : Byte.backslash ∉ text) : mark.shown = text := by
  cases written with
  | plain => rfl
  | escaped _ => exact absurd List.mem_cons_self unescaped
  | named name => cases noPoint
  | inline _ _ => cases noPoint
  | capture name _ _ => cases noCapture

/-- A text without bind points, captures and backslashes is left as it was written: `marks.flatMap Mark.shown = s`. -/
theorem WrittenAs.flatMap_shown {marks : List Mark} {s : Text} (written : WrittenAs marks s)
    {bindings : Bindings} (noPoints : marks.filterMap (bindPoint? bindings) = [])
    (noCaptures : marks.filterMap capture? = []) (unescaped : Byte.backslash ∉ s) :
    marks.flatMap Mark.shown = s := by
  rw [List.filterMap_eq_nil_iff] at noPoints noCaptures
  induction written with
  | nil => rfl
  | cons first _ ih =>
    rw [List.mem_append, not_or] at unescaped
    rw [List.flatMap_cons, first.shown_eq (noPoints _ List.mem_cons_self) (noCaptures _ List.mem_cons_self)
      unescaped.1, ih (fun mark mem => noPoints mark (List.mem_cons_of_mem _ mem))
      (fun mark mem => noCaptures mark (List.mem_cons_of_mem _ mem)) unescaped.2]

/-! ## Bind points without a specification -/

/-- The name in braces that a mark is. -/
def name? : Mark → Option Text
  | .named name => some name
  | _ => none

/-- The `name` is bound to nothing, or to an empty specification. -/
def lacksSpec (bindings : Bindings) (name : Text) : Bool :=
  bindings.find? name = none ∨ bindings.find? name = some []

/-- A name in braces stands for a specification unless it lacks one:
`(⟨name, (bindings.find? name).getD []⟩ : BindPoint).isResolved = !lacksSpec bindings name`. -/
theorem isResolved_named (bindings : Bindings) (name : Text) :
    (⟨name, (bindings.find? name).getD []⟩ : BindPoint).isResolved = !lacksSpec bindings name := by
  rw [BindPoint.isResolved, lacksSpec]
  cases bindings.find? name with
  | none => rfl
  | some spec =>
    cases spec with
    | nil => rfl
    | cons b rest => rfl

/-- The anchors that stand for no specification are the names in braces with `lacksSpec`: what is written inline is
never empty. -/
theorem missing_marks (bindings : Bindings) {marks : List Mark} {s : Text} (written : WrittenAs marks s) :
    ((marks.filterMap (bindPoint? bindings)).filter (!·.isResolved)).map BindPoint.anchor =
      (marks.filterMap name?).filter (lacksSpec bindings) := by
  induction written with
  | nil => rfl
  | cons first _ ih =>
    cases first with
    | plain | escaped _ | capture _ _ _ => exact ih
    | named name =>
      rw [List.filterMap_cons_some (by rfl), List.filterMap_cons_some (by rfl), List.filter_cons,
        List.filter_cons, isResolved_named, Bool.not_not]
      cases lacksSpec bindings name.text with
      | false => exact ih
      | true => exact congrArg (name.text :: ·) ih
    | @inline padded content _ =>
      have resolved : (⟨Text.trim padded, Text.trim padded⟩ : BindPoint).isResolved = true := by
        rw [BindPoint.isResolved, List.isEmpty_eq_false_iff.2 content]
        rfl
      rw [List.filterMap_cons_some (by rfl), List.filter_cons, resolved]
      exact ih

/-! ## Classified templates -/

/-- What makes `t` well formed, for the text `raw` and the `bindings` from which it was classified. -/
structure WellFormed (raw : Text) (bindings : Bindings) (t : Template) : Prop where
  /-- No text is empty, and none stands next to another one. -/
  separated : Separated t.segments
  /-- The numbers of the bind points go up from zero, one for each. -/
  numbered : (t.segments.filterMap bound?).map Prod.snd = List.range t.bindPoints.length
  /-- Each number leads to the bind point, and its anchor is what the segment shows. -/
  indexed : ∀ point index, .bind point index ∈ t.segments →
    t.bindPoints[index]? = some point ∧ segmentText (.bind point index) = point.anchor
  /-- It is a literal exactly if there are no bind points. -/
  literal_iff : t.kind = .literal ↔ t.bindPoints.length = 0
  /-- It is a reference exactly if a bind point is its only segment. -/
  bindref_iff : t.kind = .bindref ↔ ∃ point index, t.segments = [.bind point index]
  /-- All others are concatenations. -/
  concat_iff : t.kind = .concat ↔
    t.bindPoints.length ≠ 0 ∧ ¬ ∃ point index, t.segments = [.bind point index]
  /-- There is a bind point to give exactly for references. -/
  asBinding_iff : (∃ point, t.asBinding = some point) ↔ t.kind = .bindref
  /-- It is the one in the only segment. -/
  asBinding_eq : ∀ point, t.asBinding = some point → t.segments = [.bind point 0]
  /-- There is a text to give exactly for literals. -/
  asLiteral_iff : (∃ text, t.asLiteral = some text) ↔ t.kind = .literal
  /-- What is missing are the names in braces that lack a specification, in order and with repetitions. -/
  missing_eq : ∃ marks, scan raw = .ok marks ∧ WrittenAs marks raw ∧
    t.missing = (marks.filterMap name?).filter (lacksSpec bindings)
  /-- A text without bind points, captures and backslashes is its own literal. -/
  plain : t.bindPoints = [] → t.captures = [] → Byte.backslash ∉ raw → t.asLiteral = some raw

/-- **Every classified template is well formed**: `t.WellFormed raw bindings`. -/
theorem classify_wellFormed {raw : Text} {bindings : Bindings} {t : Template}
    (classified : classify raw bindings = .ok t) : t.WellFormed raw bindings := by
  have points := filterMap_bound?_segments classified
  have kinds : t.kind = .bindref → ∃ point, t.segments = [.bind point 0] ∧ t.asBinding = some point := by
    intro kind
    obtain ⟨point, segments, single⟩ := bindPoints_of_bindref classified kind
    exact ⟨point, segments, by rw [asBinding, if_pos kind, single, List.head?_cons]⟩
  have lone : ∀ point, t.asBinding = some point → t.kind = .bindref := by
    intro point given
    rw [asBinding] at given
    split at given
    · next kind => exact kind
    · cases given
  have noPoints : t.bindPoints.length = 0 ↔ t.bindPoints = [] := List.length_eq_zero_iff
  -- From here on the segments are those `assemble` makes of the marks, and the marks spell the text.
  obtain ⟨marks, scanned, rfl⟩ := exists_scan_of_classify classified
  have written := scan_sound scanned
  exact {
    separated := separated_assemble bindings 0 marks
    numbered := by rw [points, List.zipIdx_map_snd, List.range_eq_range']
    indexed := by
      intro point index mem
      have numbered : (point, index) ∈ List.filterMap bound? _ := List.mem_filterMap.2 ⟨_, mem, rfl⟩
      rw [points, List.mem_zipIdx_iff_getElem?] at numbered
      exact ⟨numbered, rfl⟩
    literal_iff := by rw [noPoints, kind_eq_literal_iff]
    bindref_iff := kind_eq_bindref_iff classified
    concat_iff := by rw [Ne, noPoints, ← Ne, kind_eq_concat_iff classified]
    asBinding_iff := by
      constructor
      · rintro ⟨point, given⟩
        exact lone point given
      · intro kind
        obtain ⟨point, -, given⟩ := kinds kind
        exact ⟨point, given⟩
    asBinding_eq := by
      intro point given
      obtain ⟨other, segments, given'⟩ := kinds (lone point given)
      cases given.symm.trans given'
      exact segments
    asLiteral_iff := by
      rw [asLiteral]
      split
      · next kind => exact ⟨fun _ => kind, fun _ => ⟨_, rfl⟩⟩
      · next kind => exact ⟨fun ⟨_, given⟩ => (by cases given), fun literal => absurd literal kind⟩
    missing_eq := ⟨marks, scanned, written, missing_marks bindings written⟩
    plain := by
      intro noPoints noCaptures unescaped
      rw [asLiteral, if_pos (kind_eq_literal_iff.2 noPoints)]
      show some ((assemble bindings 0 marks).flatMap segmentText) = some raw
      rw [flatMap_segmentText_assemble, written.flatMap_shown noPoints noCaptures unescaped] }

/-- A text with every kind of mark: two names lack a specification, one of them twice. -/
def sampleText : Text :=
  "\x7bempty\x7d\x7bid\x7d, \x7blost\x7d [v as w]: \\\x7b\x7bempty\x7d \x7b\x7b Hash() \x7d\x7d"

/-- The bindings for `sampleText`. -/
def sampleBindings : Bindings := .ofList [("id", "Mod(10)"), ("empty", "")]

/-- The text is classified and well formed, with the names that lack a specification in order. -/
theorem classify_wellFormed_sample :
    ∃ t, classify sampleText sampleBindings = .ok t ∧ t.WellFormed sampleText sampleBindings ∧
      t.kind = .concat ∧ t.missing = (["empty", "lost", "empty"] : List Text) := by
  obtain ⟨t, classified, passed⟩ := Outcome.exists_ok_of_test (x := classify sampleText sampleBindings)
    (fun t => t.kind = .concat ∧ t.missing = (["empty", "lost", "empty"] : List Text)) (by decide +kernel)
  obtain ⟨kind, missing⟩ := of_decide_eq_true passed
  exact ⟨t, classified, classify_wellFormed classified, kind, missing⟩

end OpCycle.Template
