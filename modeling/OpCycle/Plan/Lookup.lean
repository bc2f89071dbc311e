import OpCycle.Plan.Basic

/-! # Looking up settings
Settings of an op are looked for among the fixed fields of its plan, then among the parameters of the op,
then among those of the run. A bound field is no setting: a look-up for all cycles fails if the name is
defined in no other way, and a look-up at one cycle takes the field's value there before any parameter. -/

namespace OpCycle

/-- Why a setting cannot be given. -/
inductive LookupError
  /-- These fields are needed and are not fixed. -/
  | missing (fields : List Text)
  /-- The name is defined by a bound field only. -/
  | bound (field : Text)
  /-- The value does not convert, or its conversion fails. -/
  | conversion (fault : ValueFault)
  deriving DecidableEq, Repr

/-- The wording of a `LookupError`. -/
def LookupError.message : LookupError → Text
  | .missing fields =>
    "Fields [" ++ Text.joinWith ", " fields ++
      "] are required to be defined with static values for this type of operation."
  | .bound field =>
    "static config field '" ++ field ++
      "' was defined dynamically. Only static values are supported for this field."
  | .conversion fault => fault.message

namespace Plan

/-- Demands that all fields in `names` are fixed; the error `.missing` names those that are not. -/
def requireFixed (p : Plan) (names : List Text) : Except LookupError Unit :=
  let missing := names.filter (!p.isFixed ·)
  if missing.isEmpty then .ok () else .error (.missing missing)

/-- The value of the fixed field `name`, converted; without one the error is `.missing [name]`. -/
def fixedValue (p : Plan) (target : Target) (name : Text) : Except LookupError target.Carrier :=
  match p.fixed? name with
  | some v => (v.convert target).mapError .conversion
  | none => .error (.missing [name])

/-- The value of the fixed field `name`, converted, if there is such a field. -/
def fixedValue? (p : Plan) (target : Target) (name : Text) :
    Except LookupError (Option target.Carrier) :=
  match p.fixed? name with
  | some v => ((v.convert target).mapError .conversion).map some
  | none => .ok none

/-- The value of the fixed field `name`, or `default` where there is no field or it does not convert. -/
def fixedValueOr (p : Plan) (target : Target) (name : Text) (default : target.Carrier) :
    Except LookupError target.Carrier :=
  match p.fixed? name with
  | some v => (v.convertOr target default).mapError .conversion
  | none => if p.isBound name then .error (.bound name) else .ok default

/-- The value of the parameter `name`: of the op, else of the run. -/
def parameter? (p : Plan) (name : Text) : Option Value :=
  match p.op.params.find? name with
  | some v => some v
  | none => p.activity.bind fun a => a.params.find? name

/-- The setting `name` for all cycles: a fixed field, else `p.parameter? name`; the error is `.bound name` where only
a bound field defines it. -/
def setting (p : Plan) (name : Text) : Except LookupError (Option Value) :=
  match p.fixed? name with
  | some v => .ok (some v)
  | none =>
    match p.parameter? name with
    | some v => .ok (some v)
    | none => if p.isBound name then .error (.bound name) else .ok none

/-- The setting `name` at `cycle`: a field of either kind, else `p.parameter? name`. -/
def settingAt (p : Plan) (name : Text) (cycle : Int64) : Except ValueFault (Option Value) :=
  match p.field? name with
  | some f => (f.apply cycle).map some
  | none => .ok (p.parameter? name)

/-- What `p.setting name` converts to, or `default` where there is no setting or it does not convert. -/
def settingOr (p : Plan) (target : Target) (name : Text) (default : target.Carrier) :
    Except LookupError target.Carrier := do
  match ← p.setting name with
  | some v => (v.convertOr target default).mapError .conversion
  | none => pure default

/-- What `p.setting name` converts to, if there is a setting. -/
def setting? (p : Plan) (target : Target) (name : Text) :
    Except LookupError (Option target.Carrier) := do
  match ← p.setting name with
  | some v => ((v.convert target).mapError .conversion).map some
  | none => pure none

/-- What `p.settingAt name cycle` converts to, or `default` where there is no setting or it does not convert. -/
def settingAtOr (p : Plan) (target : Target) (name : Text) (default : target.Carrier) (cycle : Int64) :
    Except ValueFault target.Carrier := do
  match ← p.settingAt name cycle with
  | some v => v.convertOr target default
  | none => pure default

end Plan

end OpCycle
