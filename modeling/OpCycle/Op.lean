import OpCycle.Template.Scanner
import OpCycle.Value.Basic

/-! # Op templates
An op template as its author wrote it: the fields of the operation, where it has any, the bindings its
templates may name, and its parameters and tags. -/

namespace OpCycle

/-- An op template. -/
structure Op where
  /-- The name. -/
  name : Text
  /-- The fields of the operation; an op template may have no body at all. -/
  fields : Option (OrderedMap Value)
  /-- The specifications of the bindings that templates name. -/
  bindings : Bindings
  /-- Parameters that apply to this op. -/
  params : OrderedMap Value
  /-- Labels that apply to this op. -/
  tags : OrderedMap Value

/-- An op template without a body where one is needed. -/
structure NoBody where
  /-- The name of the op. -/
  op : Text
  deriving DecidableEq, Repr

/-- The wording of a `NoBody`. -/
def NoBody.message (e : NoBody) : Text := "op template '" ++ e.op ++ "' has no op fields"

namespace Op

/-- The op template without name and body. -/
def blank : Op := ⟨[], none, ∅, ∅, ∅⟩

/-- The op of no name stands in for one that is not there. -/
instance : Inhabited Op := ⟨blank⟩

/-- The fields of the operation; without them `NoBody` says whose they are. -/
def body (op : Op) : Except NoBody (OrderedMap Value) :=
  match op.fields with
  | some fields => .ok fields
  | none => .error ⟨op.name⟩

/-- The name of the field that holds the statement of an operation: `stmt`. -/
def statementField : Text := "stmt"

/-- The text under `statementField`, if there is a text. -/
def statement? (op : Op) : Option Text :=
  match op.fields.bind (·.find? statementField) with
  | some (.text s) => some s
  | _ => none

/-- The statement as a template, read with `op.bindings`, if there is one. -/
def statement (op : Op) : Except TemplateError (Option Template) :=
  match op.statement? with
  | some s => (Template.classify s op.bindings).map some
  | none => .ok none

end Op

end OpCycle
