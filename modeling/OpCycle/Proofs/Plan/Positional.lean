import OpCycle.Basics.Library
import OpCycle.Proofs.Plan.Reading
import OpCycle.Proofs.Template.Assembly

/-! # Positional statements and their parameters
A template can be rendered with its values in place, or as a statement with a token in the place of each bind
point and an array of the values beside it. Both are made of the same texts around the bind points, and the
values are the same ones in the same order.

* `inPlaces`, `partsWith`: segments with texts, or chains, in the places of their bind points.
* `applyAll_partsWith`: such parts have the texts of their chains in place.
* `filled`, `RendersAs`, `positional_agrees`: the joined text is the positional statement with its parameters. -/

namespace OpCycle.Template

/-! ## The texts around the bind points -/

/-- The text in front of the first bind point. -/
def lead : List Segment → Text
  | .literal text :: rest => text ++ lead rest
  | _ => []

/-- The text behind each bind point, up to the next one or the end. -/
def gaps : List Segment → List Text
  | [] => []
  | .literal _ :: rest => gaps rest
  | .bind _ _ :: rest => lead rest :: gaps rest

/-- The text of `segments` with `values` in the places of the bind points, from left to right. -/
def inPlaces (segments : List Segment) (values : List Text) : Text :=
  lead segments ++ (List.zipWith (· ++ ·) values (gaps segments)).flatten

/-- No segments have no text: `inPlaces [] values = []`. -/
@[simp] theorem inPlaces_nil (values : List Text) : inPlaces [] values = [] := by
  rw [inPlaces, gaps, List.zipWith_nil_right]
  rfl

/-- A literal stands in front of what the other segments give:
`inPlaces (.literal text :: rest) values = text ++ inPlaces rest values`. -/
@[simp] theorem inPlaces_literal (text : Text) (rest : List Segment) (values : List Text) :
    inPlaces (.literal text :: rest) values = text ++ inPlaces rest values :=
  List.append_assoc ..

/-- The first of the texts takes the place of the first bind point:
`inPlaces (.bind point index :: rest) (value :: values) = value ++ inPlaces rest values`. -/
@[simp] theorem inPlaces_bind (point : BindPoint) (index : Nat) (rest : List Segment) (value : Text)
    (values : List Text) : inPlaces (.bind point index :: rest) (value :: values) = value ++ inPlaces rest values := by
  show ([] : Text) ++ ((value ++ lead rest) ++ (List.zipWith (· ++ ·) values (gaps rest)).flatten) = _
  rw [List.nil_append, List.append_assoc]
  rfl

/-- The bind points of `segments`, in order. -/
def points (segments : List Segment) : List BindPoint := (segments.filterMap bound?).map Prod.fst

/-- There is a text behind each bind point: `(gaps segments).length = (points segments).length`. -/
theorem length_gaps (segments : List Segment) : (gaps segments).length = (points segments).length := by
  induction segments with
  | nil => rfl
  | cons segment rest ih =>
    cases segment with
    | literal text => exact ih
    | bind point index => exact congrArg (· + 1) ih

/-- A positional statement has `token` in every place. -/
theorem flatMap_token (token : Text) (segments : List Segment) :
    (segments.flatMap fun
      | .literal text => text
      | .bind _ _ => token) = inPlaces segments (List.replicate (points segments).length token) := by
  induction segments with
  | nil => exact (inPlaces_nil _).symm
  | cons segment rest ih =>
    rw [List.flatMap_cons, ih]
    cases segment with
    | literal text => exact (inPlaces_literal text rest _).symm
    | bind point index => exact (inPlaces_bind point index rest token _).symm

end OpCycle.Template

namespace OpCycle.Plan

open Template (points gaps inPlaces)

variable {catalog : Catalog} {allowUnsafe : Bool} {cycle : Int64}

/-! ## Binding -/

/-- The parts of segments with chains in the places of the bind points: each literal stays, each `.bind` takes the
next chain. -/
def partsWith : List Segment → List Chain → List Part
  | .literal text :: rest, chains => .literal text :: partsWith rest chains
  | .bind _ _ :: rest, chain :: chains => .bound chain :: partsWith rest chains
  | _, _ => []

/-- The name of a field shows in the error of a bind point only: `point.chain catalog allowUnsafe field = (point.chain
catalog allowUnsafe other).mapError fun e => { e with field }`. -/
theorem chain_of_field (field other : Text) (point : BindPoint) :
    point.chain catalog allowUnsafe field =
      (point.chain catalog allowUnsafe other).mapError fun e => { e with field } := by
  unfold BindPoint.chain
  split
  · cases catalog.lookup point.spec allowUnsafe with
    | some chain => rfl
    | none => rfl
  · rfl

/-- The parts of `segments` are bound as their `points` are, one after another. -/
theorem mapM_part (field : Text) (segments : List Segment) :
    segments.mapM (Segment.part catalog allowUnsafe field) =
      ((points segments).mapM (BindPoint.chain catalog allowUnsafe field)).map (partsWith segments) := by
  induction segments with
  | nil => rfl
  | cons segment rest ih =>
    rw [List.mapM_cons, ih]
    cases segment with
    | literal text =>
      show _ = ((points rest).mapM (BindPoint.chain catalog allowUnsafe field)).map _
      cases (points rest).mapM (BindPoint.chain catalog allowUnsafe field) with
      | error e => rfl
      | ok chains => rfl
    | bind point index =>
      show _ = ((point :: points rest).mapM (BindPoint.chain catalog allowUnsafe field)).map _
      rw [List.mapM_cons, Segment.part]
      cases point.chain catalog allowUnsafe field with
      | error e => rfl
      | ok chain =>
        cases (points rest).mapM (BindPoint.chain catalog allowUnsafe field) with
        | error e => rfl
        | ok chains => rfl

/-- The text of the value of `function` at `cycle`: `function.apply cycle >>= Value.toText`. -/
def textAt (cycle : Int64) (function : CycleFunction) : Except ValueFault Text :=
  function.apply cycle >>= Value.toText

/-- A list with a text that is not well-formed is a value without a text. -/
example : textAt 0 (.constant (.list [.text [0xff]])) = .error (.illFormed (.unexpected 0 0xff)) := rfl

/-- Parts with chains in their places have the texts of the chains' values there, up to the first chain that has no
value or whose value has no text: `Part.applyAll cycle (partsWith segments chains) = (chains.mapM fun chain => textAt
cycle (.chain chain)).map (inPlaces segments)`. -/
theorem applyAll_partsWith {segments : List Segment} {chains : List Chain}
    (length : chains.length = (points segments).length) :
    Part.applyAll cycle (partsWith segments chains) =
      (chains.mapM fun chain => textAt cycle (.chain chain)).map (inPlaces segments) := by
  -- Along the segments a bind point takes the first of the chains that are left, and both sides stop together.
  induction segments generalizing chains with
  | nil =>
    cases List.length_eq_zero_iff.1 length
    rfl
  | cons segment rest ih =>
    cases segment with
    | literal text =>
      rw [partsWith, Part.applyAll, ih length]
      cases chains.mapM fun chain => textAt cycle (.chain chain) with
      | error fault => rfl
      | ok texts => exact congrArg Except.ok (Template.inPlaces_literal text rest _).symm
    | bind point index =>
      cases chains with
      | nil => cases length
      | cons chain chains =>
        rw [partsWith, Part.applyAll, Part.apply, ih (Nat.succ.inj length), List.mapM_cons]
        show (textAt cycle (.chain chain) >>= _) = _
        cases textAt cycle (.chain chain) with
        | error fault => rfl
        | ok text =>
          cases chains.mapM fun chain => textAt cycle (.chain chain) with
          | error fault => rfl
          | ok texts => exact congrArg Except.ok (Template.inPlaces_bind point index rest _ _).symm

/-! ## Agreement -/

section Classified

variable {raw : Text} {bindings : Bindings} {t : Template} (classified : Template.classify raw bindings = .ok t)

include classified

/-- `t.joined` is bound as the bind points of `t` are, but for the `field` that an error names. -/
theorem joined_eq (field : Text) :
    t.joined catalog allowUnsafe field =
      ((t.bindPoints.mapM fun point : BindPoint => point.chain catalog allowUnsafe point.anchor).mapError
        fun e => { e with field }).map fun chains => .joined t.raw (partsWith t.segments chains) := by
  -- Binding for an array names each anchor as the field; the field itself takes its place.
  have bound : (t.bindPoints.mapM fun point : BindPoint => point.chain catalog allowUnsafe point.anchor).mapError
      (fun e => { e with field }) = (points t.segments).mapM (BindPoint.chain catalog allowUnsafe field) := by
    rw [Outcome.mapError_mapM, Template.bindPoints_eq classified]
    exact Outcome.mapM_congr fun point _ => (chain_of_field field point.anchor point).symm
  rw [bound, Template.joined, mapM_part]
  cases (points t.segments).mapM (BindPoint.chain catalog allowUnsafe field) with
  | error e => rfl
  | ok chains => rfl

end Classified

/-! ## The texts of parameters -/

/-- Functions whose values have texts have texts wherever they have values:
`textAt cycle function = .error fault ↔ function.apply cycle = .error fault`. -/
theorem textAt_eq_error_iff {function : CycleFunction} {fault : ValueFault}
    (written : ∀ v, function.apply cycle = .ok v → ∃ text, v.toText = .ok text) :
    textAt cycle function = .error fault ↔ function.apply cycle = .error fault := by
  rw [textAt, Outcome.bind_eq_error, or_iff_left]
  rintro ⟨v, given, unwritten⟩
  obtain ⟨text, written⟩ := written v given
  cases written.symm.trans unwritten

section Parameters

variable {shape : ArrayShape} {values : Array Value} {fault : ValueFault}

/-- An array has the values of its functions: `shape.apply cycle = (shape.functions.mapM fun place => place.apply
cycle).map List.toArray`. -/
theorem arrayShape_apply_eq_mapM (shape : ArrayShape) (cycle : Int64) : shape.apply cycle =
    (shape.functions.mapM fun place : CycleFunction => place.apply cycle).map List.toArray := by
  rw [ArrayShape.apply, CycleFunction.applyAll_eq_mapM]

/-- There is a value for each function: `values.size = shape.functions.length`. -/
theorem size_of_arrayShape (given : shape.apply cycle = .ok values) : values.size = shape.functions.length := by
  rw [arrayShape_apply_eq_mapM] at given
  obtain ⟨list, run, rfl⟩ := Spec.map_eq_ok given
  exact Outcome.length_of_made run

/-- Where an array has values, the texts of its functions are those of the values:
`shape.functions.mapM (textAt cycle) = values.toList.mapM Value.toText`. -/
theorem texts_of_values (given : shape.apply cycle = .ok values) :
    shape.functions.mapM (textAt cycle) = values.toList.mapM Value.toText := by
  rw [arrayShape_apply_eq_mapM] at given
  obtain ⟨list, run, rfl⟩ := Spec.map_eq_ok given
  exact (Outcome.mapM_of_made run fun place v given => by rw [textAt, given, Outcome.ok_bind]).symm

/-- Where it has no values, some function has no text: `shape.functions.mapM (textAt cycle) = .error first`. The
`first` may be another one, if a function before it has a value without a text. -/
theorem texts_fail_of_error (failed : shape.apply cycle = .error fault) :
    ∃ first, shape.functions.mapM (textAt cycle) = .error first := by
  rw [arrayShape_apply_eq_mapM, Outcome.map_eq_error] at failed
  obtain ⟨place, mem, other, refused⟩ := Outcome.mapM_fails_iff.1 ⟨fault, failed⟩
  exact Outcome.mapM_fails_iff.2 ⟨place, mem, other, Outcome.bind_eq_error.2 (.inl refused)⟩

/-- The texts fail exactly if the array does or has a value without a text. -/
theorem texts_fail_iff : (∃ fault, shape.functions.mapM (textAt cycle) = .error fault) ↔
    (∃ fault, shape.apply cycle = .error fault) ∨
      ∃ values, shape.apply cycle = .ok values ∧ ∃ v ∈ values.toList, ∃ fault, v.toText = .error fault := by
  cases given : shape.apply cycle with
  | error fault => exact iff_of_true (texts_fail_of_error given) (.inl ⟨fault, rfl⟩)
  | ok values =>
    rw [texts_of_values given, Outcome.mapM_fails_iff]
    constructor
    · exact fun unwritten => .inr ⟨values, rfl, unwritten⟩
    · rintro (⟨fault, failed⟩ | ⟨others, same, unwritten⟩)
      · cases failed
      · cases same
        exact unwritten

/-- If the values have texts, these fail as the array does:
`shape.functions.mapM (textAt cycle) = .error fault ↔ shape.apply cycle = .error fault`. -/
theorem texts_eq_error_iff
    (written : ∀ place ∈ shape.functions, ∀ v, place.apply cycle = .ok v → ∃ text, v.toText = .ok text) :
    shape.functions.mapM (textAt cycle) = .error fault ↔ shape.apply cycle = .error fault := by
  rw [arrayShape_apply_eq_mapM, Outcome.map_eq_error, Outcome.mapM_eq_error_iff, Outcome.mapM_eq_error_iff]
  -- Both runs stop at the first function that fails, and these are the same functions.
  refine exists_congr fun before => exists_congr fun place => exists_congr fun after =>
    and_congr_right fun split => and_congr ?_ ?_
  · refine forall₂_congr fun earlier mem => ?_
    rw [Outcome.exists_ok_iff, Outcome.exists_ok_iff]
    exact not_congr <| exists_congr fun fault => textAt_eq_error_iff (written earlier
      (by rw [split]; exact List.mem_append_left _ mem))
  · exact textAt_eq_error_iff (written place (by rw [split]; exact List.mem_append_right _ List.mem_cons_self))

end Parameters

/-- The positional statement of `t` with the texts of the parameters `shape` has at `cycle` in the places of its tokens,
from left to right. -/
def filled (t : Template) (shape : ArrayShape) (cycle : Int64) : Except ValueFault Value :=
  shape.apply cycle >>= fun values =>
    (values.toList.mapM Value.toText).map fun texts => .text (inPlaces t.segments texts)

/-- The joined text `function` renders at `cycle` as the positional statement of its template `t` and the array of
parameters `shape`. -/
structure RendersAs (t : Template) (function : CycleFunction) (shape : ArrayShape) (cycle : Int64) : Prop where
  /-- The array has as many values as the template has bind points. -/
  length : ∀ values, shape.apply cycle = .ok values → values.size = t.bindPoints.length
  /-- The function and the filled statement give the same text, or fail together. -/
  sides : (function.apply cycle).toOption = (filled t shape cycle).toOption
  /-- Where the array has values, the function gives the template with their texts in the places of the bind points,
  from left to right, and fails where the first of them without a text does. -/
  rendered : ∀ values, shape.apply cycle = .ok values →
    function.apply cycle = (values.toList.mapM Value.toText).map fun texts => .text (inPlaces t.segments texts)
  /-- The function fails exactly if the array does, or if it has a value without a text. -/
  fails : (∃ fault, function.apply cycle = .error fault) ↔ (∃ fault, shape.apply cycle = .error fault) ∨
    ∃ values, shape.apply cycle = .ok values ∧ ∃ v ∈ values.toList, ∃ fault, v.toText = .error fault
  /-- It fails with the fault of the first place that has no value or whose value has no text. -/
  first : ∀ fault, function.apply cycle = .error fault ↔
    ∃ before place after, shape.functions = before ++ place :: after ∧
      (∀ earlier ∈ before, ∃ text, textAt cycle earlier = .ok text) ∧ textAt cycle place = .error fault
  /-- If the values have texts, it fails exactly as the array does. -/
  agrees : (∀ place ∈ shape.functions, ∀ v, place.apply cycle = .ok v → ∃ text, v.toText = .ok text) →
    ∀ fault, function.apply cycle = .error fault ↔ shape.apply cycle = .error fault

/-- A function that gives the texts of other functions' values in the places of the bind points renders as the array
of these functions: `RendersAs t function shape cycle`. -/
theorem rendersAs_of_apply {t : Template} {function : CycleFunction} {shape : ArrayShape}
    (length : shape.functions.length = t.bindPoints.length)
    (texts : function.apply cycle =
      (shape.functions.mapM (textAt cycle)).map fun texts => .text (inPlaces t.segments texts)) :
    RendersAs t function shape cycle := by
  have fault_iff (fault : ValueFault) :
      function.apply cycle = .error fault ↔ shape.functions.mapM (textAt cycle) = .error fault := by
    rw [texts, Outcome.map_eq_error]
  refine ⟨fun values given => (size_of_arrayShape given).trans length, ?sides, fun values given => ?rendered, ?fails,
    fun fault => ?first, fun written fault => (fault_iff fault).trans (texts_eq_error_iff written)⟩
  case sides =>
    cases given : shape.apply cycle with
    | ok values => rw [filled, texts, given, texts_of_values given, Outcome.ok_bind]
    | error fault =>
      obtain ⟨first, failed⟩ := texts_fail_of_error given
      rw [filled, texts, given, failed]
      rfl
  case rendered => rw [texts, texts_of_values given]
  case fails => exact (exists_congr fault_iff).trans texts_fail_iff
  case first => exact (fault_iff fault).trans Outcome.mapM_eq_error_iff

/-- Chains in the places of bind points render as the array of the chains:
`RendersAs t (.joined template (partsWith t.segments chains)) ⟨chains.map .chain⟩ cycle`. -/
theorem rendersAs_of_chains {t : Template} {chains : List Chain}
    (asMany : t.bindPoints = points t.segments) (length : chains.length = t.bindPoints.length) (template : Text)
    (cycle : Int64) :
    RendersAs t (.joined template (partsWith t.segments chains)) ⟨chains.map .chain⟩ cycle := by
  have gathered : (chains.map CycleFunction.chain).mapM (textAt cycle) =
      chains.mapM fun chain => textAt cycle (.chain chain) := List.mapM_map ..
  refine rendersAs_of_apply ((List.length_map _).trans length) ?_
  rw [CycleFunction.apply_joined, applyAll_partsWith (by rw [length, asMany]), gathered]
  cases chains.mapM fun chain => textAt cycle (.chain chain) with
  | error fault => rfl
  | ok texts => rfl

/-- **Positional statements and joined texts agree.** A template has a text behind each bind point; its
positional statement has the token in each of these places. The bind points can be bound for an array exactly
when the text can be joined, and if not, both errors name the same anchor and specification; and if so, the
joined text is at every cycle the statement `filled` with the texts of the array's values in the places of the tokens,
and both fail together: where the array does or where a value of it has no text, the joined text with the fault of the
first such place (`RendersAs`). -/
theorem positional_agrees {raw : Text} {bindings : Bindings} {t : Template}
    (classified : Template.classify raw bindings = .ok t) (p : Plan) (catalog : Catalog) (field : Text) :
    (gaps t.segments).length = t.bindPoints.length ∧
      (∀ token, t.positional token = inPlaces t.segments (List.replicate t.bindPoints.length token)) ∧
      ((∃ function, t.joined catalog p.allowUnsafe field = .ok function) ↔
        ∃ shape, p.pointShape t.bindPoints catalog = .ok shape) ∧
      (∀ e e', t.joined catalog p.allowUnsafe field = .error e →
        p.pointShape t.bindPoints catalog = .error e' → e.anchor = e'.anchor ∧ e.spec = e'.spec) ∧
      ∀ function shape, t.joined catalog p.allowUnsafe field = .ok function →
        p.pointShape t.bindPoints catalog = .ok shape → ∀ cycle, RendersAs t function shape cycle := by
  have asMany : t.bindPoints = points t.segments := Template.bindPoints_eq classified
  have places : (gaps t.segments).length = t.bindPoints.length := by rw [Template.length_gaps, asMany]
  have tokens (token) : t.positional token = inPlaces t.segments (List.replicate t.bindPoints.length token) := by
    rw [asMany]
    exact Template.flatMap_token token t.segments
  refine ⟨places, tokens, ?_⟩
  rw [joined_eq classified, pointShape]
  -- Template and array bind the same points with the same chains; only the names they report differ.
  cases run : t.bindPoints.mapM fun point : BindPoint => point.chain catalog p.allowUnsafe point.anchor with
  | error e =>
    refine ⟨⟨fun ⟨_, h⟩ => (by cases h), fun ⟨_, h⟩ => (by cases h)⟩, fun e e' joined shaped => ?_,
      fun function shape joined => (by cases joined)⟩
    cases joined
    cases shaped
    exact ⟨rfl, rfl⟩
  | ok chains =>
    refine ⟨⟨fun _ => ⟨_, rfl⟩, fun _ => ⟨_, rfl⟩⟩, fun e e' joined => (by cases joined),
      fun function shape joined shaped => ?_⟩
    cases joined
    cases shaped
    exact rendersAs_of_chains asMany (Outcome.length_of_made run) t.raw

/-- A text with a name that stands in it twice, once right behind another one. -/
def repeatedText : Text := "\x7bid\x7d-\x7bnext\x7d\x7bid\x7d!"

/-- What the names in `repeatedText` stand for. -/
def repeatedBindings : Bindings := .ofList [("id", "Mod(10)"), ("next", "Add(1); ToString()")]

/-- A plan without fields, for a run without parameters. -/
def blankPlan : Plan := ⟨.blank, none, false, [], [], {}⟩

/-- The text can be joined and its bind points can be bound; at cycle 17 the values 7, 18 and 7 stand in the
places of the tokens. -/
theorem positional_agrees_sample :
    ∃ t function shape, Template.classify repeatedText repeatedBindings = .ok t ∧
      t.joined Basics.catalog blankPlan.allowUnsafe "field" = .ok function ∧
      blankPlan.pointShape t.bindPoints Basics.catalog = .ok shape ∧ RendersAs t function shape 17 ∧
      t.positional "?" = "?-??!" ∧ function.apply 17 = .ok (.text "7-187!") := by
  obtain ⟨t, classified, passed⟩ := Outcome.exists_ok_of_test
    (x := Template.classify repeatedText repeatedBindings)
    (fun t => t.positional "?" = "?-??!" &&
      (t.joined Basics.catalog blankPlan.allowUnsafe "field").toOption.any fun function =>
        (function.apply 17).toOption.any (· == .text "7-187!"))
    (by decide +kernel)
  rw [Bool.and_eq_true, decide_eq_true_eq] at passed
  obtain ⟨function, joined, rendered⟩ := Outcome.exists_ok_of_test _ passed.2
  obtain ⟨-, -, built, -, renders⟩ := positional_agrees classified blankPlan Basics.catalog "field"
  obtain ⟨shape, shaped⟩ := built.1 ⟨function, joined⟩
  obtain ⟨v, given, text⟩ := Outcome.exists_ok_of_test _ rendered
  refine ⟨t, function, shape, classified, joined, shaped, renders function shape joined shaped 17, passed.1, ?_⟩
  rw [given, Value.beq_text_iff.1 text]

end OpCycle.Plan
