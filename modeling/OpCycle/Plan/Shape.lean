import OpCycle.Plan.Basic

/-! # Shapes of fields
Some fields of a plan taken together at a cycle: as a list, as an array or as a map, in the order in which
they are asked for. A name without a field gives null. -/

namespace OpCycle

/-- The values of functions at `cycle`, up to the first that refuses its input. -/
def CycleFunction.applyAll (cycle : Int64) : List CycleFunction → Except ValueFault (List Value)
  | [] => .ok []
  | function :: rest => do
    let v ← function.apply cycle
    let vs ← applyAll cycle rest
    pure (v :: vs)

/-- A number of names that is not the number of functions. -/
inductive ShapeError
  /-- Of a list. -/
  | list
  /-- Of a map. -/
  | map
  deriving DecidableEq, Repr

/-- The wording of a `ShapeError`. -/
def ShapeError.message : ShapeError → Text
  | .list => "ListBinder: names and functions differ in length"
  | .map => "OrderedMapBinder: names and functions differ in length"

/-- Named functions whose values make a list. -/
structure ListShape where
  /-- The names. -/
  names : List Text
  /-- The functions, one for each name. -/
  functions : List CycleFunction
  /-- There are as many names as functions. -/
  aligned : names.length = functions.length

/-- The list of the values of `shape.functions` at `cycle`. -/
def ListShape.apply (shape : ListShape) (cycle : Int64) : Except ValueFault (List Value) :=
  CycleFunction.applyAll cycle shape.functions

/-- The shape of `names` and `functions` in equal number. -/
def ListShape.ofFunctions (names : List Text) (functions : List CycleFunction) :
    Except ShapeError ListShape :=
  if aligned : names.length = functions.length then .ok ⟨names, functions, aligned⟩ else .error .list

/-- Functions whose values make an array. -/
structure ArrayShape where
  /-- The functions. -/
  functions : List CycleFunction

/-- The array of the values of `shape.functions` at `cycle`. -/
def ArrayShape.apply (shape : ArrayShape) (cycle : Int64) : Except ValueFault (Array Value) :=
  (CycleFunction.applyAll cycle shape.functions).map List.toArray

/-- Named functions whose values make a map. -/
structure MapShape where
  /-- The names. -/
  names : List Text
  /-- The functions, one for each name. -/
  functions : List CycleFunction
  /-- There are as many names as functions. -/
  aligned : names.length = functions.length

/-- The map from `shape.names` to the values of `shape.functions` at `cycle`. -/
def MapShape.apply (shape : MapShape) (cycle : Int64) : Except ValueFault (OrderedMap Value) :=
  (CycleFunction.applyAll cycle shape.functions).map fun values => .ofList (shape.names.zip values)

/-- The shape of `names` and `functions` in equal number. -/
def MapShape.ofFunctions (names : List Text) (functions : List CycleFunction) :
    Except ShapeError MapShape :=
  if aligned : names.length = functions.length then .ok ⟨names, functions, aligned⟩ else .error .map

namespace Plan

/-- The functions for `names`, the constant null where there is no field. -/
def functionsOf (p : Plan) (names : List Text) : List CycleFunction :=
  names.map fun name => p.functionOr name .null

/-- The list of the fields in `names`. -/
def listShape (p : Plan) (names : List Text) : ListShape :=
  ⟨names, p.functionsOf names, (List.length_map ..).symm⟩

/-- The array of the fields in `names`. -/
def arrayShape (p : Plan) (names : List Text) : ArrayShape := ⟨p.functionsOf names⟩

/-- The map of the fields in `names`. -/
def mapShape (p : Plan) (names : List Text) : MapShape :=
  ⟨names, p.functionsOf names, (List.length_map ..).symm⟩

/-- The array of `points`, bound as the plan allows. A bind point stands in for its field in errors. -/
def pointShape (p : Plan) (points : List BindPoint) (catalog : Catalog) : Except Unbound ArrayShape := do
  let chains ← points.mapM fun point => point.chain catalog p.allowUnsafe point.anchor
  pure ⟨chains.map .chain⟩

end Plan

end OpCycle
