import OpCycle.Value.Conversion

/-! # Functions of the cycle
What a dynamic field is bound to: a function that gives a value for every cycle number. Applying one
changes nothing, so one function serves any number of cycles in any order. -/

namespace OpCycle

/-- A step of a chain. -/
structure Step where
  /-- Makes a value out of the one before it, or refuses that one. -/
  run : Value → Except ValueFault Value
  /-- The number of bytes that the step sets aside for a text at every run. -/
  room : Nat := 0

/-- A step is run by applying it: `step v` is `step.run v`. -/
instance : CoeFun Step fun _ => Value → Except ValueFault Value := ⟨Step.run⟩

/-- Steps applied one after another, the first to the cycle number. -/
structure Chain where
  /-- The specification that the chain was made from. -/
  spec : Text
  /-- The steps in order. -/
  steps : List Step

/-- Passes a value through `steps` from left to right, up to the first that refuses what it gets. -/
def Step.runAll : List Step → Value → Except ValueFault Value
  | [], v => .ok v
  | step :: rest, v => do
    let next ← step v
    runAll rest next

/-- The value of a chain at a cycle: what its `steps` make of `.int cycle`. -/
def Chain.apply (chain : Chain) (cycle : Int64) : Except ValueFault Value :=
  Step.runAll chain.steps (.int cycle)

/-- No step of `chain` sets aside more than `limit` bytes. -/
def Chain.fits (limit : Nat) (chain : Chain) : Bool := chain.steps.all fun step => step.room ≤ limit

/-- A part of a text with bound places. -/
inductive Part
  /-- Text that stays. -/
  | literal (text : Text)
  /-- A place that takes the text of a chain's value. -/
  | bound (chain : Chain)

/-- The text of a part at a cycle. A `bound` place has none where its chain refuses the cycle, or where `Value.toText`
of the chain's value fails. -/
def Part.apply : Part → Int64 → Except ValueFault Text
  | .literal text, _ => .ok text
  | .bound chain, cycle => chain.apply cycle >>= Value.toText

/-- No step behind a part sets aside more than `limit` bytes. -/
def Part.fits (limit : Nat) : Part → Bool
  | .literal _ => true
  | .bound chain => chain.fits limit

/-- The texts of the parts at `cycle`, joined; the first part without a text decides the fault. -/
def Part.applyAll (cycle : Int64) : List Part → Except ValueFault Text
  | [] => .ok []
  | part :: rest => do
    let text ← part.apply cycle
    let more ← applyAll cycle rest
    pure (text ++ more)

/-- A function of the cycle. -/
inductive CycleFunction
  /-- The same value at every cycle. -/
  | constant (value : Value)
  /-- A chain of steps. -/
  | chain (c : Chain)
  /-- The parts of a template joined into one text. -/
  | joined (template : Text) (parts : List Part)

namespace CycleFunction

/-- The value at a cycle: that of the `constant`, of the `chain`, or the text of the `joined` parts. -/
def apply : CycleFunction → Int64 → Except ValueFault Value
  | .constant value, _ => .ok value
  | .chain c, cycle => c.apply cycle
  | .joined _ parts, cycle => (Part.applyAll cycle parts).map .text

/-- The function of parts has their joined text as its value:
`(joined template parts).apply cycle = (Part.applyAll cycle parts).map .text`. -/
@[simp] theorem apply_joined (template : Text) (parts : List Part) (cycle : Int64) :
    (joined template parts).apply cycle = (Part.applyAll cycle parts).map .text := rfl

/-- What the function was made from, for people to read: the `spec` of a chain, the `template` of joined parts, and
for a constant its text in `Constant(..)`, where it has one. -/
def describe : CycleFunction → Except ValueFault Text
  | .constant value => value.toText.map fun text => "Constant(" ++ text ++ ")"
  | .chain c => .ok c.spec
  | .joined template _ => .ok template

/-- No step behind the function sets aside more than `limit` bytes. -/
def fits (limit : Nat) : CycleFunction → Bool
  | .constant _ => true
  | .chain c => c.fits limit
  | .joined _ parts => parts.all (·.fits limit)

/-- The number of steps of a `chain`; other functions have none. -/
def length? : CycleFunction → Option Nat
  | .chain c => some c.steps.length
  | _ => none

end CycleFunction

/-! ## Runs of steps -/

/-- The first of several steps runs before the others: `runAll (step :: rest) v = (step v).bind (runAll rest)`. -/
@[simp] theorem Step.runAll_cons (step : Step) (rest : List Step) (v : Value) :
    Step.runAll (step :: rest) v = (step v).bind (Step.runAll rest) := rfl

/-- Running two lists of steps in a row is running their concatenation:
`Step.runAll (first ++ second) v = (Step.runAll first v).bind (Step.runAll second)`. -/
theorem Step.runAll_append (first second : List Step) (v : Value) :
    Step.runAll (first ++ second) v = (Step.runAll first v).bind (Step.runAll second) := by
  induction first generalizing v with
  | nil => rfl
  | cons step rest ih =>
    simp only [List.cons_append, runAll_cons]
    cases step v with
    | error => rfl
    | ok next => exact ih next

end OpCycle
