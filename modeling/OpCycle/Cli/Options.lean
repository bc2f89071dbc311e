import OpCycle.Text.Decimal

/-! # Command-line options
What may be asked for on the command line. Arguments with an equals sign are parameters of the run, and the
one remaining argument names the workload. An empty name is no name. -/

namespace OpCycle.Cli

/-- What is asked for. -/
structure Options where
  /-- The workload document. -/
  workload : Option Text := none
  /-- The document with the engine settings. -/
  engine : Option Text := none
  /-- The one op to render instead of all of them. -/
  op : Option Text := none
  /-- The first cycle. -/
  start : Option Int64 := none
  /-- The cycle after the last one. -/
  stop : Option Int64 := none
  /-- The number of threads. -/
  threads : Option Int32 := none
  /-- Whether to indent the output. -/
  pretty : Bool := false
  /-- Whether to list the functions instead. -/
  listFunctions : Bool := false
  /-- The parameters of the run. -/
  params : List Text := []
  deriving DecidableEq

/-- What a call of the program is to do. -/
inductive Request
  /-- List the functions. -/
  | listFunctions
  /-- Render a workload. -/
  | render (workload : Text) (o : Options)
  deriving DecidableEq

/-- What the options ask for, if they ask for anything: a list of functions before the rendering of a `workload`. -/
def Options.request? (o : Options) : Option Request :=
  if o.listFunctions then some .listFunctions else o.workload.map fun workload => .render workload o

/-- How to call the program. -/
def usage : Text :=
  "usage: cyclebind <workload.yaml> [--config engine.yaml] [--cycles A..B]\n" ++
    "                 [--threads N] [--op NAME] [--pretty] [key=value ...]\n" ++
    "       cyclebind --functions\n"

/-- Reads a range of cycles: `A..B`, where `B` is not before `A`, or a count of cycles from zero on. -/
def readCycles? (s : Text) : Option (Int64 × Int64) :=
  match Text.cut? ".." s with
  | none => (Decimal.readInt64? s).map fun count => (0, count)
  | some (before, after) => do
    let start ← Decimal.readInt64? before
    let stop ← Decimal.readInt64? after
    if stop < start then none else pure (start, stop)

/-- Reads a number of threads, at least one. The number is taken as a 64-bit integer `n`, of which `n.toInt32`
counts. -/
def readThreads? (s : Text) : Option Int32 := do
  let n ← Decimal.readInt64? s
  if n < 1 then none else pure n.toInt32

/-- A text as a name, which is not `[]`. -/
def name? (s : Text) : Option Text := if s.isEmpty then none else some s

/-- The line about an `option` whose value is missing. -/
def missingValue (option : Text) : Text := "missing value for " ++ option ++ "\n"

/-- Reads arguments on top of `o`. A refusal carries the lines to print before `usage`. -/
def Options.readAll (o : Options) : List Text → Except Text Options
  | [] => .ok o
  | arg :: rest =>
    if arg = "--config" then
      match rest with
      | [] => .error (missingValue arg)
      | value :: rest => { o with engine := name? value }.readAll rest
    else if arg = "--cycles" then
      match rest with
      | [] => .error (missingValue arg ++ "invalid cycle range\n")
      | value :: rest =>
        match readCycles? value with
        | some (start, stop) => { o with start := some start, stop := some stop }.readAll rest
        | none => .error "invalid cycle range\n"
    else if arg = "--threads" then
      match rest with
      | [] => .error (missingValue arg ++ "invalid thread count\n")
      | value :: rest =>
        match readThreads? value with
        | some threads => { o with threads := some threads }.readAll rest
        | none => .error "invalid thread count\n"
    else if arg = "--op" then
      match rest with
      | [] => .error (missingValue arg)
      | value :: rest => { o with op := name? value }.readAll rest
    else if arg = "--pretty" then { o with pretty := true }.readAll rest
    else if arg = "--functions" then { o with listFunctions := true }.readAll rest
    else if arg = "-h" ∨ arg = "--help" then .error []
    else if arg.contains Byte.equals then { o with params := o.params ++ [arg] }.readAll rest
    else if o.workload.isNone then { o with workload := name? arg }.readAll rest
    else .error ("unexpected argument: " ++ arg ++ "\n")

/-- Reads the arguments of a call. A refusal carries the lines to print before `usage`. -/
def Request.read (args : List Text) : Except Text Request :=
  match ({} : Options).readAll args with
  | .error lines => .error lines
  | .ok o =>
    match o.request? with
    | some request => .ok request
    | none => .error []

end OpCycle.Cli
