import OpCycle.Catalog.Basic

/-! # Resolving specifications
A specification resolves to a chain when it parses and each of its calls passes the checks below in their
order: the function is known, it is safe or unsafe ones are allowed, the number of arguments fits, no text
flows into a step for integers, and the function accepts its arguments. The first failed check of the first
call that fails one is the error. -/

namespace OpCycle

/-- Why a specification does not resolve. -/
inductive SpecFault
  /-- It does not parse. -/
  | malformed (e : Spec.ParseError)
  /-- No function has this name. -/
  | unknown (name : Text)
  /-- The function is not safe to share, and unsafe ones are not allowed. -/
  | notThreadSafe (name : Text)
  /-- The function takes another number of arguments. -/
  | argumentCount (name : Text) (least most given : Nat)
  /-- The function takes an integer, and the one before it yields a text. -/
  | intFromText (name producer : Text)
  /-- The function does not accept its arguments. -/
  | badArgument (name : Text) (reason : Refusal)
  deriving DecidableEq, Repr

/-- The wording of a `SpecFault`. -/
def SpecFault.message : SpecFault → Text
  | .malformed e => e.message
  | .unknown name => "unknown function '" ++ name ++ "'"
  | .notThreadSafe name => "function '" ++ name ++ "' is not thread-safe"
  | .argumentCount name least most given =>
    "function '" ++ name ++ "' takes " ++ Decimal.ofNat least ++ ".." ++ Decimal.ofNat most ++
      " arguments, got " ++ Decimal.ofNat given
  | .intFromText name producer =>
    "function '" ++ name ++ "' takes an int but '" ++ producer ++ "' yields a string"
  | .badArgument name reason => "bad argument to '" ++ name ++ "': " ++ reason.message

/-- A specification that does not resolve. -/
structure SpecError where
  /-- The specification. -/
  spec : Text
  /-- What is wrong with it. -/
  fault : SpecFault
  deriving DecidableEq, Repr

/-- The wording of a `SpecError`: the specification and what is wrong with it. -/
def SpecError.message (e : SpecError) : Text :=
  "invalid binding spec '" ++ e.spec ++ "': " ++ e.fault.message

/-- What flows out of the steps so far, and which call it comes from. -/
structure Flow where
  /-- The kind of value. -/
  kind : FlowKind
  /-- The name of the last call, or `cycle` before the first. -/
  producer : Text
  deriving DecidableEq, Repr

/-- What flows into the first step: the cycle number, an integer. -/
def Flow.start : Flow := ⟨.int, "cycle"⟩

/-- What flows out of a step of `d` that takes `incoming`: what `d.outputOf` says of the arguments, if `d` has it, and
else `d.output`, where `.same` stands for `incoming`. -/
def Definition.kindAfter (d : Definition) (args : List Value) (incoming : FlowKind) : FlowKind :=
  match d.outputOf with
  | some outputOf => outputOf args
  | none => if d.output = .same then incoming else d.output

namespace Catalog

/-- The step of `call`, and what flows out of it. The checks are made in this order: the name, thread safety, the
number of arguments, a text that flows into a step for integers, and what the maker says. -/
def resolveCall (c : Catalog) (allowUnsafe : Bool) (flow : Flow) (call : Spec.Call) :
    Except SpecFault (Step × Flow) :=
  match c.find? call.name with
  | none => .error (.unknown call.name)
  | some d =>
    if !d.threadSafe && !allowUnsafe then .error (.notThreadSafe call.name)
    else if call.args.length < d.minArgs ∨ d.maxArgs < call.args.length then
      .error (.argumentCount call.name d.minArgs d.maxArgs call.args.length)
    else if d.input = .int ∧ flow.kind = .text then .error (.intFromText call.name flow.producer)
    else
      match d.maker with
      -- The catalog holds no definition without a maker.
      | none => .error (.unknown call.name)
      | some make =>
        match make call.args with
        | .error reason => .error (.badArgument call.name reason)
        | .ok step => .ok (step, ⟨d.kindAfter call.args flow.kind, call.name⟩)

/-- The steps of calls in a row, and what flows out of the last; `flow` flows into the first. -/
def resolveCalls (c : Catalog) (allowUnsafe : Bool) (flow : Flow) :
    List Spec.Call → Except SpecFault (List Step × Flow)
  | [] => .ok ([], flow)
  | call :: rest => do
    let (step, flow) ← c.resolveCall allowUnsafe flow call
    let (steps, flow) ← c.resolveCalls allowUnsafe flow rest
    pure (step :: steps, flow)

/-- The steps of `spec`, and what flows out of the last. -/
def resolveSteps (c : Catalog) (allowUnsafe : Bool) (spec : Text) : Except SpecFault (List Step × Flow) :=
  match Spec.parse spec with
  | .error e => .error (.malformed e)
  | .ok calls => c.resolveCalls allowUnsafe Flow.start calls

/-- The chain that `spec` stands for, with unsafe functions in it only if `allowUnsafe`. -/
def resolve (c : Catalog) (spec : Text) (allowUnsafe : Bool) : Except SpecError Chain :=
  match c.resolveSteps allowUnsafe spec with
  | .error fault => .error ⟨spec, fault⟩
  | .ok (steps, _) => .ok ⟨spec, steps⟩

/-- The chain that `spec` stands for, if `c.resolve` gives one. -/
def lookup (c : Catalog) (spec : Text) (allowUnsafe : Bool) : Option Chain :=
  (c.resolve spec allowUnsafe).toOption

end Catalog

end OpCycle
