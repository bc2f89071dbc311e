import OpCycle.Op
import OpCycle.Settings.Activity
import OpCycle.Template.Binding

/-! # Plans
A plan is an op template made ready for many cycles. Each field is classified once: it is fixed, or bound
to a function of the cycle. The skeleton holds the fixed values and null in the place of each bound field,
and for each bound field a slot says where in the skeleton its value goes, so a cycle copies the skeleton
and fills the slots. -/

namespace OpCycle

/-- What a field is. -/
inductive FieldBody
  /-- The same value at every cycle. -/
  | fixed (value : Value)
  /-- The value of a function at the cycle. -/
  | bound (function : CycleFunction)

/-- A field of a plan. -/
structure Field where
  /-- The name. -/
  name : Text
  /-- What the field is. -/
  body : FieldBody

/-- Whether the body of `f` is `bound`. -/
def Field.isBound (f : Field) : Bool :=
  match f.body with
  | .fixed _ => false
  | .bound _ => true

/-- The value of `f` at `cycle`. -/
def Field.apply (f : Field) (cycle : Int64) : Except ValueFault Value :=
  match f.body with
  | .fixed v => .ok v
  | .bound function => function.apply cycle

/-- A place in the skeleton that a function fills. -/
structure Slot where
  /-- The position in the skeleton. -/
  index : Nat
  /-- The function. -/
  function : CycleFunction

/-- The fields of a plan seen in three ways. -/
structure Views where
  /-- The values of the fixed fields. -/
  statics : OrderedMap Value := ∅
  /-- All fields, the bound ones null. -/
  skeleton : OrderedMap Value := ∅
  /-- The places of the bound fields. -/
  slots : List Slot := []

/-- Adds `f` to the views: its value to the statics and the skeleton, or null to the skeleton and its function to the
slots. -/
def Views.add (views : Views) (f : Field) : Views :=
  match f.body with
  | .fixed v =>
    { views with statics := views.statics.set f.name v, skeleton := views.skeleton.set f.name v }
  | .bound function =>
    let skeleton := views.skeleton.set f.name .null
    { views with skeleton, slots := views.slots ++ [⟨skeleton.size - 1, function⟩] }

/-- The views of `fields` in order, each one added to those before it. -/
def Views.ofFields (fields : List Field) : Views := fields.foldl Views.add {}

/-- Why an op template cannot be made into a plan. -/
inductive PlanError
  /-- The op of this name has no body. -/
  | noBody (op : Text)
  /-- The text of a field is no template. -/
  | template (e : TemplateError)
  /-- A bind point of a field is not bound. -/
  | unbound (e : Unbound)
  deriving DecidableEq, Repr

/-- The wording of a `PlanError`. -/
def PlanError.message : PlanError → Text
  | .noBody op => "Op template '" ++ op ++ "' has no op fields to compile"
  | .template e => e.message
  | .unbound e => e.message

/-- A plan. -/
structure Plan where
  /-- The op template. -/
  op : Op
  /-- The parameters of the run, where there are any. -/
  activity : Option Activity
  /-- Whether functions that are not thread-safe may be called. -/
  allowUnsafe : Bool
  /-- The fields in order. -/
  fields : List Field
  /-- The captures in each text field, in order. -/
  captures : List (List Capture)
  /-- The fields seen in three ways. -/
  views : Views

namespace Plan

/-! ## Making a plan -/

/-- A change to the fields of an op before they are classified. -/
abbrev Preprocessor : Type := OrderedMap Value → OrderedMap Value

/-- What the fields of an op are bound with. -/
structure Binder where
  /-- The functions that specifications may call. -/
  catalog : Catalog
  /-- Whether functions that are not thread-safe may be called. -/
  allowUnsafe : Bool
  /-- The specifications of named bindings. -/
  bindings : Bindings

/-- What the template `t` of the text `raw` makes of the field `name`. A text without bind points stays as it is
written, captures and escapes included; a lone bind point gives the value of its chain, of whatever kind; and anything
else is joined into a text. -/
def bindTemplate (b : Binder) (name raw : Text) (t : Template) : Except Unbound FieldBody :=
  match t.kind, t.bindPoints with
  | .bindref, point :: _ => (point.chain b.catalog b.allowUnsafe name).map fun c => .bound (.chain c)
  | .concat, _ => (t.joined b.catalog b.allowUnsafe name).map .bound
  | _, _ => .ok (.fixed (.text raw))

/-- The field `name` made from `raw`, and the captures in it if it is a text. -/
def compileField (b : Binder) (name : Text) (raw : Value) :
    Except PlanError (Field × List (List Capture)) :=
  match raw with
  | .text s => do
    let t ← (Template.classify s b.bindings).mapError .template
    let body ← (bindTemplate b name s t).mapError .unbound
    pure (⟨name, body⟩, [t.captures])
  | v => .ok (⟨name, .fixed v⟩, [])

/-- The fields made from raw values in order, each by `compileField`, and the captures in the texts among them. -/
def compileFields (b : Binder) :
    List (Text × Value) → Except PlanError (List Field × List (List Capture))
  | [] => .ok ([], [])
  | (name, raw) :: rest => do
    let (field, group) ← compileField b name raw
    let (fields, groups) ← compileFields b rest
    pure (field :: fields, group ++ groups)

/-- The parameter that allows functions that are not thread-safe: `allow_unsafe_functions`. -/
def unsafeParameter : Text := "allow_unsafe_functions"

/-- Whether the parameters of a run allow functions that are not thread-safe: `unsafeParameter` as a boolean. -/
def allowsUnsafe (activity : Option Activity) : Bool :=
  match activity with
  | some a => a.readOr Value.toBool? unsafeParameter false
  | none => false

/-- Makes a plan of `op`. The `preprocessors` change the fields one after another before they are classified. -/
def compile (op : Op) (activity : Option Activity) (preprocessors : List Preprocessor)
    (catalog : Catalog) : Except PlanError Plan :=
  match op.fields with
  | none => .error (.noBody op.name)
  | some raw => do
    let raw := preprocessors.foldl (fun fields change => change fields) raw
    let allowUnsafe := allowsUnsafe activity
    let (fields, captures) ← compileFields ⟨catalog, allowUnsafe, op.bindings⟩ raw.entries
    pure { op, activity, allowUnsafe, fields, captures, views := Views.ofFields fields }

/-! ## Running a plan -/

/-- Puts the value of a slot at `cycle` into `m`. -/
def fill (cycle : Int64) (m : OrderedMap Value) (slot : Slot) : Except ValueFault (OrderedMap Value) :=
  (slot.function.apply cycle).map (m.setAt slot.index)

/-- Fills the slots of `m` one after another, up to the first whose function refuses its input. -/
def fillAll (cycle : Int64) (m : OrderedMap Value) : List Slot → Except ValueFault (OrderedMap Value)
  | [] => .ok m
  | slot :: rest => do
    let m ← fill cycle m slot
    fillAll cycle m rest

/-- The fields of the op at `cycle`: the skeleton with its slots filled. -/
def apply (p : Plan) (cycle : Int64) : Except ValueFault (OrderedMap Value) :=
  fillAll cycle p.views.skeleton p.views.slots

/-- No step behind a bound field sets aside more than `limit` bytes. -/
def fits (limit : Nat) (p : Plan) : Bool := p.views.slots.all fun slot => slot.function.fits limit

/-! ## Looking at a plan -/

/-- The field named `name`; should several fields have the name, the last of them. -/
def field? (p : Plan) (name : Text) : Option Field := p.fields.reverse.find? fun f => f.name = name

/-- The value of the field `name` at `cycle`, null where there is no such field. -/
def get (p : Plan) (name : Text) (cycle : Int64) : Except ValueFault Value :=
  match p.field? name with
  | some f => f.apply cycle
  | none => .ok .null

/-- The names of `p.fields` in order. -/
def names (p : Plan) : List Text := p.fields.map Field.name

/-- The number of `p.fields`. -/
def size (p : Plan) : Nat := p.fields.length

/-- The names of the bound fields with their functions, read off `p.views.slots`. -/
def dynamics (p : Plan) : List (Text × CycleFunction) :=
  p.views.slots.filterMap fun slot =>
    (p.views.skeleton.entryAt? slot.index).map fun entry => (entry.1, slot.function)

/-- The value of the fixed field `name`. -/
def fixed? (p : Plan) (name : Text) : Option Value :=
  match p.field? name with
  | some ⟨_, .fixed v⟩ => some v
  | _ => none

/-- The function of the bound field `name`. -/
def bound? (p : Plan) (name : Text) : Option CycleFunction :=
  match p.field? name with
  | some ⟨_, .bound function⟩ => some function
  | _ => none

/-- Whether there is a field `name`. -/
def isDefined (p : Plan) (name : Text) : Bool := (p.field? name).isSome

/-- Whether there is a fixed field `name`. -/
def isFixed (p : Plan) (name : Text) : Bool := (p.fixed? name).isSome

/-- Whether there is a bound field `name`. -/
def isBound (p : Plan) (name : Text) : Bool := (p.bound? name).isSome

/-- A function for `name`: the one of a bound field, the constant of a fixed one, and the constant `default` where
there is no field. -/
def functionOr (p : Plan) (name : Text) (default : Value) : CycleFunction :=
  match p.field? name with
  | some ⟨_, .fixed v⟩ => .constant v
  | some ⟨_, .bound function⟩ => function
  | none => .constant default

end Plan

end OpCycle
