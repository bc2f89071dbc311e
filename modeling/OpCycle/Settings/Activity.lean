import OpCycle.Document.Node
import OpCycle.Json.Reader

/-! # Activity parameters
The parameters of a whole run, the last place where a setting is looked for. They come from documents and
from `key=value` arguments, and layers of them lie over one another. -/

namespace OpCycle

/-- The parameters of a run. -/
structure Activity where
  /-- The parameters by name. -/
  params : OrderedMap Value

namespace Activity

/-- The run without parameters. -/
def empty : Activity := ⟨∅⟩

/-- The run without parameters is written `∅`. -/
instance : EmptyCollection Activity := ⟨empty⟩

/-- The run without parameters stands in for one that is not there. -/
instance : Inhabited Activity := ⟨empty⟩

/-- The parameter `key`, and null where there is none. -/
def get (a : Activity) (key : Text) : Value := (a.params.find? key).getD .null

/-- Whether there is a parameter `key`. -/
def contains (a : Activity) (key : Text) : Bool := a.params.contains key

/-- The parameter `key` converted, or `default` where there is none or it does not convert. -/
def getOr (a : Activity) (target : Target) (key : Text) (default : target.Carrier) :
    Except ValueFault target.Carrier :=
  match a.params.find? key with
  | some v => v.convertOr target default
  | none => .ok default

/-- The parameter `key` as `read` reads it, or `default` where there is none or `read` has nothing to give. -/
def readOr {α : Type} (a : Activity) (read : Value → Option α) (key : Text) (default : α) : α :=
  ((a.params.find? key).bind read).getD default

/-- The parameters with those of `top` laid over them. -/
def overlay (a top : Activity) : Activity := ⟨a.params.overlay top.params⟩

/-- The parameter in `arg`: a key before the first equals sign, and behind it a value read loosely. -/
def readArgument? (arg : Text) : Option (Text × Value) :=
  match Text.cut? [Byte.equals] arg with
  | some (key, text) => if key.isEmpty then none else some (key, Json.looseValue text)
  | none => none

/-- The parameters of `key=value` arguments, if all of them are of that form. -/
def ofArguments? (args : List Text) : Option Activity :=
  (args.mapM readArgument?).map fun entries => ⟨.ofList entries⟩

/-- The parameters in a document section `n` that may be absent. -/
def ofNode (n : Option Node) : Except NodeFault Activity := (Node.toMap n).map .mk

/-- The section of `root` that holds the parameters: the one under `activity`, or the whole document. -/
def sectionOf (root : Node) : Except NodeFault Node :=
  (root.entry "activity").map fun found => found.getD root

/-- The parameters in `document`. -/
def ofDocument (document : Document) : Except NodeFault Activity := do
  let root ← document.root
  let parameters ← sectionOf root
  ofNode (some parameters)

end Activity

end OpCycle
