import OpCycle.CycleFunction
import OpCycle.SortedMap
import OpCycle.Spec.Parser

/-! # The catalog of functions
The functions that specifications may call, by name, with what is known about each: how many arguments it
takes, what kind of value may flow into and out of its step, and whether it is safe to share between
threads. A later definition under a name takes the place of the earlier one. -/

namespace OpCycle

/-- The kind of value that flows between two steps, as far as it is known in advance. -/
inductive FlowKind
  /-- Any value. -/
  | any
  /-- An integer. -/
  | int
  /-- A text. -/
  | text
  /-- Whatever flows in. -/
  | same
  deriving DecidableEq, Repr

/-- The name of a kind in listings, such as `int`. -/
def FlowKind.label : FlowKind → Text
  | .any => "any"
  | .int => "int"
  | .text => "string"
  | .same => "same"

/-- Why a function does not accept its arguments. -/
inductive Refusal
  /-- An argument does not convert. -/
  | argument (fault : ValueFault)
  /-- The arguments break a rule of the function. -/
  | rule (text : Text)
  deriving DecidableEq, Repr

/-- The wording of a refusal: that of the `fault`, or the `text` of the rule. -/
def Refusal.message : Refusal → Text
  | .argument fault => fault.message
  | .rule text => text

/-- Makes a `Step` out of the arguments of a call, or refuses them. -/
abbrev Maker : Type := List Value → Except Refusal Step

/-- A function of the catalog. -/
structure Definition where
  /-- The name that calls use. -/
  name : Text
  /-- The group in listings. -/
  category : Text := "general"
  /-- Whether the function may be shared between threads. -/
  threadSafe : Bool := true
  /-- The least number of arguments. -/
  minArgs : Nat := 0
  /-- The greatest number of arguments. -/
  maxArgs : Nat := 0
  /-- What may flow into the step. -/
  input : FlowKind := .any
  /-- What flows out of the step. -/
  output : FlowKind := .any
  /-- A call to show in listings. -/
  sample : Text := []
  /-- Makes the step; a definition without it is not usable. -/
  maker : Option Maker
  /-- What flows out of the step, where that depends on the arguments. -/
  outputOf : Option (List Value → FlowKind) := none

/-- The functions known by name. -/
structure Catalog where
  /-- The usable definitions by name. -/
  definitions : SortedMap Definition
  /-- The names of the libraries, in the order in which they were added. -/
  libraries : List Text

/-- A named collection of definitions. -/
structure Library where
  /-- The name of the library. -/
  name : Text
  /-- Its definitions, in the order in which they are entered. -/
  definitions : List Definition

namespace Catalog

/-- The catalog without functions. -/
def empty : Catalog := ⟨∅, []⟩

/-- The catalog without functions is written `∅`. -/
instance : EmptyCollection Catalog := ⟨empty⟩

/-- Enters `d` in place of the definition with its name; one without a `maker` is ignored. -/
def define (c : Catalog) (d : Definition) : Catalog :=
  if d.maker.isSome then { c with definitions := c.definitions.insert d.name d } else c

/-- Enters the definitions of `library` in order, and its name. -/
def addLibrary (c : Catalog) (library : Library) : Catalog :=
  let c := library.definitions.foldl define c
  { c with libraries := c.libraries ++ [library.name] }

/-- The definition under `name`. -/
def find? (c : Catalog) (name : Text) : Option Definition := c.definitions.find? name

/-- The names of the functions in byte order, which `c.definitions` keeps. -/
def names (c : Catalog) : List Text := c.definitions.keys

end Catalog

end OpCycle
