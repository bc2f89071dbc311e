import OpCycle.Template.Scanner
import OpCycle.Proofs.Outcome

/-! # Assembling marks
Gluing text in front of segments does what text after text does, and assembling numbers the bind points
in order. So the segments of a classified template tell its kind.

* `assemble_literals`, `filterMap_bound?_assemble`: what becomes of text and of bind points.
* `kind_eq_literal_iff`: the kind of a template. -/

namespace OpCycle.Template

/-! ## Gluing -/

/-- No marks add no segments: `glue [] segments = segments`. -/
@[simp] theorem glue_nil (segments : List Segment) : glue [] segments = segments := rfl

/-- Gluing a text to a bind point keeps both:
`glue text (.bind point index :: rest) = .literal text :: .bind point index :: rest`. -/
theorem glue_bind {text : Text} (nonempty : text ≠ []) (point : BindPoint) (index : Nat)
    (rest : List Segment) :
    glue text (.bind point index :: rest) = .literal text :: .bind point index :: rest := by
  unfold glue
  rw [if_neg (by rwa [List.isEmpty_iff])]

/-- Gluing a text to nothing is the text: `glue text [] = [.literal text]`. -/
theorem glue_of_nil {text : Text} (nonempty : text ≠ []) : glue text [] = [.literal text] := by
  unfold glue
  rw [if_neg (by rwa [List.isEmpty_iff])]

/-- Gluing a text to a text makes them one: `glue text (.literal next :: rest) = .literal (text ++ next) :: rest`. -/
theorem glue_literal {text : Text} (nonempty : text ≠ []) (next : Text) (rest : List Segment) :
    glue text (.literal next :: rest) = .literal (text ++ next) :: rest := by
  rw [glue, if_neg (by rwa [List.isEmpty_iff])]

/-- Glued text leaves segments: `glue text segments ≠ []`. -/
theorem glue_ne_nil {text : Text} (nonempty : text ≠ []) (segments : List Segment) : glue text segments ≠ [] := by
  cases segments with
  | nil =>
    rw [glue_of_nil nonempty]
    exact List.cons_ne_nil _ _
  | cons segment rest =>
    cases segment with
    | literal next =>
      rw [glue_literal nonempty]
      exact List.cons_ne_nil _ _
    | bind point index =>
      rw [glue_bind nonempty]
      exact List.cons_ne_nil _ _

/-- Gluing two texts in a row is gluing them one after another, the second first:
`glue (first ++ second) segments = glue first (glue second segments)`. -/
theorem glue_append (first second : Text) (segments : List Segment) :
    glue (first ++ second) segments = glue first (glue second segments) := by
  by_cases h₁ : first = []
  · rw [h₁, List.nil_append, glue_nil]
  by_cases h₂ : second = []
  · rw [h₂, List.append_nil, glue_nil]
  have whole : first ++ second ≠ [] := List.append_ne_nil_of_left_ne_nil h₁ second
  cases segments with
  | nil => rw [glue_of_nil whole, glue_of_nil h₂, glue_literal h₁]
  | cons segment rest =>
    cases segment with
    | literal next =>
      rw [glue_literal whole, glue_literal h₂, glue_literal h₁, List.append_assoc]
    | bind point index => rw [glue_bind whole, glue_bind h₂, glue_literal h₁]

/-- Assembling bytes one by one glues them together:
`assemble bindings index (text.map (fun b => .literal [b]) ++ marks) = glue text (assemble bindings index marks)`. -/
theorem assemble_literals (bindings : Bindings) (index : Nat) (text : Text) (marks : List Mark) :
    assemble bindings index (text.map (fun b => .literal [b]) ++ marks) =
      glue text (assemble bindings index marks) := by
  induction text with
  | nil => rfl
  | cons b rest ih =>
    rw [List.map_cons, List.cons_append, assemble, ih, ← glue_append, List.singleton_append]

/-! ## Bind points -/

/-- The bind point of a segment with its number. -/
def bound? : Segment → Option (BindPoint × Nat)
  | .literal _ => none
  | .bind point index => some (point, index)

/-- Gluing changes no bind point: `(glue text segments).filterMap bound? = segments.filterMap bound?`. -/
@[simp] theorem filterMap_bound?_glue (text : Text) (segments : List Segment) :
    (glue text segments).filterMap bound? = segments.filterMap bound? := by
  by_cases h : text = []
  · rw [h, glue_nil]
  cases segments with
  | nil => rw [glue_of_nil h]; rfl
  | cons segment rest =>
    cases segment with
    | literal next => rw [glue_literal h]; rfl
    | bind point index => rw [glue_bind h]; rfl

/-- Assembling numbers the bind points of the marks in order:
`(assemble bindings index marks).filterMap bound? = (marks.filterMap (bindPoint? bindings)).zipIdx index`. -/
theorem filterMap_bound?_assemble (bindings : Bindings) (index : Nat) (marks : List Mark) :
    (assemble bindings index marks).filterMap bound? =
      (marks.filterMap (bindPoint? bindings)).zipIdx index := by
  induction marks generalizing index with
  | nil => rfl
  | cons mark rest ih =>
    cases mark with
    | literal text => rw [assemble, filterMap_bound?_glue, ih]; rfl
    | capture c => rw [assemble, filterMap_bound?_glue, ih]; rfl
    | named name =>
      rw [assemble, List.filterMap_cons_some (by rfl), ih, List.filterMap_cons_some (by rfl),
        List.zipIdx_cons]
    | inline spec =>
      rw [assemble, List.filterMap_cons_some (by rfl), ih, List.filterMap_cons_some (by rfl),
        List.zipIdx_cons]

/-! ## Classified templates -/

/-- A text that is classified is scanned, and its template is assembled from the marks: `classify raw bindings = .ok
⟨raw, assemble bindings 0 marks, marks.filterMap (bindPoint? bindings), marks.filterMap capture?⟩`. -/
theorem classify_of_scan {raw : Text} {marks : List Mark} (scanned : scan raw = .ok marks)
    (bindings : Bindings) :
    classify raw bindings = .ok ⟨raw, assemble bindings 0 marks,
      marks.filterMap (bindPoint? bindings), marks.filterMap capture?⟩ := by
  rw [classify, scanned]

/-- A classified text has been scanned: its template is assembled from the marks of `scan raw`. -/
theorem exists_scan_of_classify {raw : Text} {bindings : Bindings} {t : Template}
    (classified : classify raw bindings = .ok t) :
    ∃ marks, scan raw = .ok marks ∧ t = ⟨raw, assemble bindings 0 marks,
      marks.filterMap (bindPoint? bindings), marks.filterMap capture?⟩ := by
  unfold classify at classified
  split at classified
  · cases classified
  · next marks scanned =>
    cases classified
    exact ⟨marks, scanned, rfl⟩

/-- The bind points among the segments of a classified template are its bind points, numbered:
`t.segments.filterMap bound? = t.bindPoints.zipIdx`. -/
theorem filterMap_bound?_segments {raw : Text} {bindings : Bindings} {t : Template}
    (classified : classify raw bindings = .ok t) :
    t.segments.filterMap bound? = t.bindPoints.zipIdx := by
  obtain ⟨marks, -, rfl⟩ := exists_scan_of_classify classified
  exact filterMap_bound?_assemble bindings 0 marks

/-- The bind points of a classified template are those of its segments, in order:
`t.bindPoints = (t.segments.filterMap bound?).map Prod.fst`. -/
theorem bindPoints_eq {raw : Text} {bindings : Bindings} {t : Template}
    (classified : classify raw bindings = .ok t) :
    t.bindPoints = (t.segments.filterMap bound?).map Prod.fst := by
  rw [filterMap_bound?_segments classified, List.zipIdx_map_fst]

/-- The bind points of a classified template are those among its segments:
`point ∈ t.bindPoints ↔ ∃ index, .bind point index ∈ t.segments`. -/
theorem mem_bindPoints_iff {raw : Text} {bindings : Bindings} {t : Template}
    (classified : classify raw bindings = .ok t) {point : BindPoint} :
    point ∈ t.bindPoints ↔ ∃ index, .bind point index ∈ t.segments := by
  rw [bindPoints_eq classified]
  constructor
  · intro mem
    obtain ⟨⟨point', index⟩, memBound, rfl⟩ := List.mem_map.1 mem
    obtain ⟨segment, memSegment, bound⟩ := List.mem_filterMap.1 memBound
    cases segment with
    | literal text => cases bound
    | bind point index' =>
      cases bound
      exact ⟨index, memSegment⟩
  · rintro ⟨index, memSegment⟩
    exact List.mem_map.2 ⟨(point, index), List.mem_filterMap.2 ⟨_, memSegment, rfl⟩, rfl⟩

/-- A bind point in the middle of the segments of a classified template is one of its bind points:
`point ∈ t.bindPoints`. -/
theorem mem_bindPoints_of_segments {raw : Text} {bindings : Bindings} {t : Template}
    (classified : classify raw bindings = .ok t) {before after : List Segment} {point : BindPoint}
    {index : Nat} (segments : t.segments = before ++ .bind point index :: after) :
    point ∈ t.bindPoints := by
  rw [mem_bindPoints_iff classified, segments]
  exact ⟨index, List.mem_append_right _ List.mem_cons_self⟩

/-- An inline specification that is read is not empty: `spec ≠ []`. -/
theorem inline_ne_nil_of_readMark {b : UInt8} {rest spec after : Text}
    (read : readMark b rest = .ok (.inline spec, after)) : spec ≠ [] := by
  unfold readMark at read
  -- Only the closed double brace gives an inline mark, and it refuses a blank specification.
  repeat' split at read
  all_goals cases read
  next nonblank _ => rwa [List.isEmpty_iff] at nonblank

/-- The inline specifications among the marks of a text are not empty: `spec ≠ []`. -/
theorem inline_ne_nil_of_scan {s : Text} {marks : List Mark} (scanned : scan s = .ok marks)
    {spec : Text} (mem : .inline spec ∈ marks) : spec ≠ [] := by
  fun_induction scan s generalizing marks with
  | case1 =>
    cases scanned
    exact absurd mem List.not_mem_nil
  | case2 => cases scanned
  | case3 b rest mark after read ih =>
    cases others : scan after with
    | error stop =>
      rw [others] at scanned
      cases scanned
    | ok later =>
      rw [others] at scanned
      cases scanned
      rcases List.mem_cons.1 mem with rfl | mem
      · exact inline_ne_nil_of_readMark read
      · exact ih others mem

/-- A bind point of a classified template stands for what the bindings hold under its anchor, which is empty where
they hold nothing; or it is written inline and stands for itself:
`point.spec = (bindings.find? point.anchor).getD [] ∨ point.spec = point.anchor ∧ point.spec ≠ []`. -/
theorem spec_of_mem_bindPoints {raw : Text} {bindings : Bindings} {t : Template}
    (classified : classify raw bindings = .ok t) {point : BindPoint} (mem : point ∈ t.bindPoints) :
    point.spec = (bindings.find? point.anchor).getD [] ∨
      point.spec = point.anchor ∧ point.spec ≠ [] := by
  obtain ⟨marks, scanned, rfl⟩ := exists_scan_of_classify classified
  obtain ⟨mark, memMarks, made⟩ := List.mem_filterMap.1 mem
  cases mark with
  | literal text => cases made
  | capture c => cases made
  | named name =>
    cases made
    exact .inl rfl
  | inline spec =>
    cases made
    exact .inr ⟨rfl, inline_ne_nil_of_scan scanned memMarks⟩

/-- The kind of a template without bind points: `t.kind = .literal ↔ t.bindPoints = []`. -/
theorem kind_eq_literal_iff {t : Template} : t.kind = .literal ↔ t.bindPoints = [] := by
  rw [kind]
  split
  · next h => exact ⟨fun _ => List.isEmpty_iff.1 h, fun _ => rfl⟩
  · next h =>
    constructor
    · intro kind
      split at kind <;> cases kind
    · intro none
      exact absurd (List.isEmpty_iff.2 none) h

/-- The kind of a classified template that is a bind point and nothing else:
`t.kind = .bindref ↔ ∃ point index, t.segments = [.bind point index]`. -/
theorem kind_eq_bindref_iff {raw : Text} {bindings : Bindings} {t : Template}
    (classified : classify raw bindings = .ok t) :
    t.kind = .bindref ↔ ∃ point index, t.segments = [.bind point index] := by
  have numbered := filterMap_bound?_segments classified
  constructor
  · intro kind
    rw [Template.kind] at kind
    split at kind
    · cases kind
    next some =>
    split at kind
    · next single =>
      obtain ⟨segment, segments⟩ := List.length_eq_one_iff.1 single
      rw [segments] at numbered
      cases points : t.bindPoints with
      | nil => exact absurd (List.isEmpty_iff.2 points) some
      | cons point others =>
        rw [points, List.zipIdx_cons] at numbered
        cases segment with
        | literal text => cases numbered
        | bind point' index =>
          rw [segments]
          rw [List.filterMap_cons_some (by rfl)] at numbered
          cases (List.cons.inj numbered).1
          exact ⟨point, 0, rfl⟩
    · cases kind
  · rintro ⟨point, index, segments⟩
    rw [segments] at numbered
    rw [Template.kind, if_neg, if_pos]
    · rw [segments]; rfl
    · intro none
      rw [List.isEmpty_iff.1 none] at numbered
      cases numbered

/-- A classified template of the kind of a lone bind point is one segment with its only bind point:
`∃ point, t.segments = [.bind point 0] ∧ t.bindPoints = [point]`. -/
theorem bindPoints_of_bindref {raw : Text} {bindings : Bindings} {t : Template}
    (classified : classify raw bindings = .ok t) (kind : t.kind = .bindref) :
    ∃ point, t.segments = [.bind point 0] ∧ t.bindPoints = [point] := by
  obtain ⟨point, index, segments⟩ := (kind_eq_bindref_iff classified).1 kind
  have numbered := filterMap_bound?_segments classified
  rw [segments, List.filterMap_cons_some (by rfl), List.filterMap_nil] at numbered
  cases points : t.bindPoints with
  | nil =>
    rw [points] at numbered
    cases numbered
  | cons first others =>
    rw [points, List.zipIdx_cons, List.cons.injEq] at numbered
    cases numbered.1
    rw [List.zipIdx_eq_nil_iff.1 numbered.2.symm]
    exact ⟨point, segments, rfl⟩

/-- The kind of all other classified templates:
`t.kind = .concat ↔ t.bindPoints ≠ [] ∧ ¬ ∃ point index, t.segments = [.bind point index]`. -/
theorem kind_eq_concat_iff {raw : Text} {bindings : Bindings} {t : Template}
    (classified : classify raw bindings = .ok t) :
    t.kind = .concat ↔ t.bindPoints ≠ [] ∧ ¬ ∃ point index, t.segments = [.bind point index] := by
  rw [Ne, ← kind_eq_literal_iff, ← kind_eq_bindref_iff classified]
  cases t.kind <;> simp

end OpCycle.Template
