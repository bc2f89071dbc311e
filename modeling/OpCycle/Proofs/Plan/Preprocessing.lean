import OpCycle.Basics.Library
import OpCycle.Plan.Lookup
import OpCycle.Plan.Shape
import OpCycle.Proofs.Plan.Compilation
import OpCycle.Proofs.Template.Assembly

/-! # Preprocessing against authoring
Applying the first of some preprocessors to the body of an op template by hand makes the same plan, or fails
with the same error, for all that a plan answers from its fields, its captures and its parameters. The
statement is the exception: it is read off the op template that the plan was made of, and so it is the one
from before any preprocessing.

* `compile_preprocessed`: the plan of a body that was preprocessed by hand.
* `Agrees`, `preprocessed_agrees`: such plans agree on all but the statement. -/

namespace OpCycle

/-! ## Statements -/

/-- The text that a statement was read from: the `raw` text of a template, and that which an error holds. -/
def Op.statementSource : Except TemplateError (Option Template) → Option Text
  | .ok t => t.map Template.raw
  | .error e => some e.template

/-- A statement is read from the text of its op: `statementSource op.statement = op.statement?`. -/
theorem Op.statementSource_statement (op : Op) : statementSource op.statement = op.statement? := by
  unfold statement
  cases op.statement? with
  | none => rfl
  | some s =>
    dsimp only [Template.classify]
    cases Template.scan s with
    | error stop => rfl
    | ok marks => rfl

/-- The statements of two ops with the same bindings agree exactly if their texts do:
`op.statement = other.statement ↔ op.statement? = other.statement?`. -/
theorem Op.statement_eq_iff {op other : Op} (bindings : op.bindings = other.bindings) :
    op.statement = other.statement ↔ op.statement? = other.statement? := by
  constructor
  · intro same
    rw [← op.statementSource_statement, same, other.statementSource_statement]
  · intro same
    unfold statement
    rw [same, bindings]

namespace Plan

/-! ## Agreement of plans -/

/-- The plans `p` and `q` give the same answer to every question but the one for the statement. -/
structure Agrees (p q : Plan) : Prop where
  /-- They have the same name. -/
  name : p.op.name = q.op.name
  /-- They have the same fields, in name, kind and function. -/
  fields : p.fields = q.fields
  /-- They have as many fields. -/
  size : p.size = q.size
  /-- They name the same fields in the same order. -/
  names : p.names = q.names
  /-- They keep the same values of a result. -/
  captures : p.captures = q.captures
  /-- They have the same values for fixed fields. -/
  statics : p.views.statics = q.views.statics
  /-- They have the same functions for bound fields. -/
  dynamics : p.dynamics = q.dynamics
  /-- They have the same skeleton. -/
  skeleton : p.views.skeleton = q.views.skeleton
  /-- They give the same map, or refuse alike, at every cycle. -/
  apply : ∀ cycle, p.apply cycle = q.apply cycle
  /-- They give the same value of a field, or refuse alike. -/
  get : ∀ field cycle, p.get field cycle = q.get field cycle
  /-- They have a field, fixed or bound, under the same names. -/
  isDefined : ∀ field, p.isDefined field = q.isDefined field
  isFixed : ∀ field, p.isFixed field = q.isFixed field
  isBound : ∀ field, p.isBound field = q.isBound field
  /-- They have the same function of a field. -/
  bound? : ∀ field, p.bound? field = q.bound? field
  functionOr : ∀ field default, p.functionOr field default = q.functionOr field default
  /-- They demand and convert fixed fields alike. -/
  requireFixed : ∀ demanded, p.requireFixed demanded = q.requireFixed demanded
  fixedValue : ∀ target field, p.fixedValue target field = q.fixedValue target field
  fixedValue? : ∀ target field, p.fixedValue? target field = q.fixedValue? target field
  fixedValueOr : ∀ target field default,
    p.fixedValueOr target field default = q.fixedValueOr target field default
  /-- They find the same settings, for all cycles and at each. -/
  setting : ∀ key, p.setting key = q.setting key
  settingOr : ∀ target key default, p.settingOr target key default = q.settingOr target key default
  setting? : ∀ target key, p.setting? target key = q.setting? target key
  settingAt : ∀ key cycle, p.settingAt key cycle = q.settingAt key cycle
  settingAtOr : ∀ target key default cycle,
    p.settingAtOr target key default cycle = q.settingAtOr target key default cycle
  /-- They make the same shapes of fields and of bind points. -/
  listShape : ∀ chosen, p.listShape chosen = q.listShape chosen
  arrayShape : ∀ chosen, p.arrayShape chosen = q.arrayShape chosen
  mapShape : ∀ chosen, p.mapShape chosen = q.mapShape chosen
  pointShape : ∀ points catalog, p.pointShape points catalog = q.pointShape points catalog

/-- No answer but the statement depends on the body of the op template:
`p.Agrees { p with op := { p.op with fields := body } }`. -/
theorem agrees_withBody (p : Plan) (body : Option (OrderedMap Value)) :
    p.Agrees { p with op := { p.op with fields := body } } := by
  constructor <;> intros <;> rfl

/-! ## Preprocessing -/

/-- Preprocessors in a row are the first ones and then the others:
`preprocess (first ++ second) fields = preprocess second (preprocess first fields)`. -/
theorem preprocess_append (first second : List Preprocessor) (fields : OrderedMap Value) :
    preprocess (first ++ second) fields = preprocess second (preprocess first fields) :=
  List.foldl_append

/-- The body `preprocess first raw` makes with `second` the plan that `raw` makes with `first ++ second`, but for the
body that the plan keeps. -/
theorem compile_preprocessed (op : Op) (raw : OrderedMap Value) (activity : Option Activity)
    (first second : List Preprocessor) (catalog : Catalog) :
    compile { op with fields := some (preprocess first raw) } activity second catalog =
      (compile { op with fields := some raw } activity (first ++ second) catalog).map fun p =>
        { p with op := { p.op with fields := some (preprocess first raw) } } := by
  unfold compile
  dsimp only
  rw [← preprocess, ← preprocess, preprocess_append]
  cases compileFields ⟨catalog, allowsUnsafe activity, op.bindings⟩
      (preprocess second (preprocess first raw)).entries with
  | error e => rfl
  | ok made => rfl

/-- **Preprocessing is authoring, for all but the statement.** A body that goes through the preprocessors
`first ++ second` and one to which `first` has been applied by hand either fail with the same error or make plans of
which `Agrees` holds: the same answers but for the statement. Each plan's statement is that of its own op template,
and so the two agree exactly if `first` leaves the text of the statement as it is. -/
theorem preprocessed_agrees (op : Op) (raw : OrderedMap Value) (activity : Option Activity)
    (first second : List Preprocessor) (catalog : Catalog) :
    match compile { op with fields := some raw } activity (first ++ second) catalog,
        compile { op with fields := some (preprocess first raw) } activity second catalog with
    | .error e, .error e' => e = e'
    | .ok p, .ok q =>
      p.Agrees q ∧ p.op = { op with fields := some raw } ∧
        q.op = { op with fields := some (preprocess first raw) } ∧
        (p.op.statement = q.op.statement ↔ p.op.statement? = q.op.statement?)
    | _, _ => False := by
  rw [compile_preprocessed]
  cases compiled : compile { op with fields := some raw } activity (first ++ second) catalog with
  | error e => rfl
  | ok p =>
    obtain ⟨_, _, _, -, -, rfl⟩ := compile_eq_ok compiled
    exact ⟨agrees_withBody _ _, rfl, rfl, Op.statement_eq_iff rfl⟩

/-- Fields whose statement stands under another name. -/
def misnamedFields : OrderedMap Value := .ofList [("statement", .text "select \x7bk\x7d")]

/-- An op with the fields `misnamedFields`. -/
def misnamedOp : Op :=
  { name := "pre", fields := some misnamedFields, bindings := .ofList [("k", "Identity()")],
    params := ∅, tags := ∅ }

/-- A change that moves the statement to `Op.statementField`. -/
def nameStatement : Preprocessor := fun fields =>
  match fields.find? "statement" with
  | some v => (fields.erase "statement").set Op.statementField v
  | none => fields

/-- The field of the statement is preprocessed and the statement is not: with `nameStatement` as a preprocessor the
plan has the field but no statement, and with the change made by hand it has both. -/
theorem statement_not_preprocessed :
    ∃ p q, compile misnamedOp none [nameStatement] Basics.catalog = .ok p ∧
      compile { misnamedOp with fields := some (preprocess [nameStatement] misnamedFields) } none []
        Basics.catalog = .ok q ∧
      p.isBound Op.statementField = true ∧ p.op.statement = .ok none ∧
      p.op.statement ≠ q.op.statement := by
  have outcome : (compile misnamedOp none [nameStatement] Basics.catalog).toOption.any
      (fun p => p.isBound Op.statementField) = true := by
    decide +kernel
  obtain ⟨p, compiled, bound⟩ := Outcome.exists_ok_of_test _ outcome
  have authored := compile_preprocessed misnamedOp misnamedFields none [nameStatement] [] Basics.catalog
  have own : p.op = misnamedOp := op_of_compile compiled
  refine ⟨p, _, compiled, authored.trans (congrArg _ compiled), bound, ?_, ?_⟩
  · rw [own]
    rfl
  · intro same
    refine absurd ((Op.statement_eq_iff ?_).1 same) ?_
    · rfl
    · dsimp only
      rw [own]
      decide +kernel

end Plan

end OpCycle
