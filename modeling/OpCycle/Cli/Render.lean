import OpCycle.Basics.Library
import OpCycle.Cli.Options
import OpCycle.Document.Directory
import OpCycle.Plan.Basic
import OpCycle.Settings.Engine
import OpCycle.Workload

/-! # Rendering workloads
The program: it makes a plan of each op of a workload and prints the fields of each op at each cycle, one
JSON document per op and cycle. Either every line is printed or none. The cycles are dealt out to workers
in consecutive slices, and the lines of the slices follow each other in order. -/

namespace OpCycle.Cli

/-- What a call of the program leaves behind. -/
structure Outcome where
  /-- The exit code. -/
  code : Nat
  /-- What is printed. -/
  output : Text
  /-- What is printed about wrong arguments. -/
  errors : Text
  deriving DecidableEq, Repr

/-- A call that fails with `code`, without a word. -/
def Outcome.failure (code : Nat) : Outcome := ⟨code, [], []⟩

/-! ## Listing functions -/

/-- The line of `d`: name, group, safety, kinds and sample, with tabs between them. -/
def functionLine (d : Definition) : Text :=
  let safety : Text := if d.threadSafe then "thread-safe" else "unsafe"
  Text.joinWith [Byte.tab]
      [d.name, d.category, safety, d.input.label ++ "->" ++ d.output.label, d.sample] ++
    [Byte.lineFeed]

/-- The lines of all functions of `catalog`. -/
def functionLines (catalog : Catalog) : Text :=
  (catalog.names.filterMap catalog.find?).flatMap functionLine

/-! ## Slices -/

/-- Puts what `f` gives for so many indices from `index` on behind what was `found`, up to the first index that it
refuses. -/
def collect {α : Type} (f : Nat → Option (List α)) (index : Nat) (found : Array α) :
    Nat → Option (Array α)
  | 0 => some found
  | count + 1 =>
    match f index with
    | none => none
    | some more => collect f (index + 1) (found ++ more) count

/-- Collecting gives what all the indices give, one after another: `(collect f index found count).map Array.toList =
((List.range' index count).mapM f).map (found.toList ++ ·.flatten)`. -/
theorem toList_collect {α : Type} (f : Nat → Option (List α)) (index : Nat) (found : Array α)
    (count : Nat) :
    (collect f index found count).map Array.toList =
      ((List.range' index count).mapM f).map (found.toList ++ ·.flatten) := by
  induction count generalizing index found with
  | zero => simp [collect]
  | succ count ih =>
    rw [List.range'_succ, List.mapM_cons, collect]
    cases f index with
    | none => rfl
    | some more =>
      simp only [ih]
      cases (List.range' (index + 1) count).mapM f <;> simp

/-- The number of workers: `max 1 (min threads total)`, as many as are asked for, but no more than cycles, and at
least one. -/
def workerCount (threads : Int32) (total : Int64) : Nat :=
  (max 1 (min threads.toInt total.toInt)).toNat

/-- Where the slice of a worker starts: `start + total * worker / workers` in 64-bit arithmetic. -/
def sliceStart (start total : Int64) (workers worker : Nat) : Int64 :=
  start + total * Int64.ofNat worker / Int64.ofNat workers

/-- How much a worker can set aside at once. -/
structure Room where
  /-- The greatest number of lines. -/
  lines : Nat
  /-- The greatest number of bytes of a text. -/
  bytes : Nat

/-- There is `room` for the lines of the slice from `start` to `stop`, whose number is computed in 64 bits, and at
each of its cycles for the texts of the steps. -/
def Room.holds (room : Room) (plans : List Plan) (start stop : Int64) : Bool :=
  ((stop - start).toUInt64 * plans.length.toUInt64).toNat ≤ room.lines &&
    (stop ≤ start || plans.all (·.fits room.bytes))

/-! ## Lines -/

/-- Why an op has no line at a cycle. -/
inductive LineFault
  /-- A function refuses its input. -/
  | refused (fault : ValueFault)
  /-- A text in the line is not well-formed. -/
  | illFormed
  deriving DecidableEq, Repr

/-- The document of `p.op` at `cycle`: its name, the cycle and `p.apply cycle`. -/
def lineOf (style : Json.Style) (p : Plan) (cycle : Int64) : Except LineFault Text := do
  let fields ← (p.apply cycle).mapError .refused
  let line : Json := .object ⟨[
    ("op", .string p.op.name), ("cycle", .signed cycle), ("fields", Json.ofMap fields)]⟩
  match line.render? style with
  | some text => pure text
  | none => .error .illFormed

/-- The lines at `cycle`, op by op; there are none if one of them has a `LineFault`. -/
def linesAt (style : Json.Style) (plans : List Plan) (cycle : Int64) : Option (List Text) :=
  (plans.mapM fun p => lineOf style p cycle).toOption

/-! ## Jobs -/

/-- What there is to render, and how. -/
structure Job where
  /-- The plans in the order of their ops. -/
  plans : List Plan
  /-- The first cycle. -/
  start : Int64
  /-- The cycle after the last one. -/
  stop : Int64
  /-- The number of threads that is asked for. -/
  threads : Int32
  /-- The layout of the lines. -/
  style : Json.Style

/-- What the workers run on: how the cycles of a job are dealt out to them, and what they have room for. -/
structure Machine where
  /-- The number of workers for a job. -/
  workers : Job → Nat
  /-- Where the slice of a worker starts; it stops where the next one starts. -/
  sliceStart : Job → Nat → Int64
  /-- There is room to render a job at the cycles from a first to before a last one. -/
  hasRoom : Job → Int64 → Int64 → Bool

/-- The machine of the program: 64-bit arithmetic in `workerCount` and `Cli.sliceStart`, and the `room` that there is
where it runs. -/
def Machine.words (room : Room) : Machine where
  workers job := workerCount job.threads (job.stop - job.start)
  sliceStart job worker :=
    Cli.sliceStart job.start (job.stop - job.start) (workerCount job.threads (job.stop - job.start)) worker
  hasRoom job := room.holds job.plans

namespace Job

/-- The lines of the slice from `start` to `stop`, cycle by cycle. There are none if a line has a fault or `machine`
has no room. -/
def slice (job : Job) (machine : Machine) (start stop : Int64) : Option (List Text) :=
  if machine.hasRoom job start stop then
    let count := (stop.toInt - start.toInt).toNat
    (collect (fun i => linesAt job.style job.plans (start + Int64.ofNat i)) 0 #[] count).map Array.toList
  else none

/-- The lines of all slices that `machine` deals out, one slice after another. -/
def lines (job : Job) (machine : Machine) : Option (List Text) :=
  let bound := machine.sliceStart job
  let slice := fun worker => job.slice machine (bound worker) (bound (worker + 1))
  (collect slice 0 #[] (machine.workers job)).map Array.toList

/-- Renders `job` on `machine`; its cycles have to be in order. -/
def run (job : Job) (machine : Machine) : Outcome :=
  if job.stop < job.start then .failure 1
  else
    match job.lines machine with
    | some lines => ⟨0, lines.flatMap (· ++ [Byte.lineFeed]), []⟩
    | none => .failure 1

end Job

/-! ## The program -/

/-- The parameters of the run: those of the command line, `params`, over those of the `workload` over the policy of
the `engine`. -/
def activityOf (engine : Engine) (workload : Workload) (params : List Text) : Option Activity :=
  let policy : Activity := ⟨OrderedMap.empty.set Plan.unsafeParameter (.bool engine.allowUnsafe)⟩
  let base := policy.overlay workload.activity
  if params.isEmpty then some base else (Activity.ofArguments? params).map base.overlay

/-- The ops to render: all of them, or those with the given `name`. -/
def selectOps (workload : Workload) : Option Text → List Op
  | none => workload.ops
  | some name => workload.ops.filter fun op => op.name = name

/-- The job of rendering `plans` over the cycles that `o`, `activity` and `engine` ask for, in this order of
precedence. -/
def jobOf (o : Options) (engine : Engine) (activity : Activity) (plans : List Plan) : Job where
  plans := plans
  start := o.start.getD (activity.readOr Value.toInt64? "cycles_start" engine.render.start)
  stop := o.stop.getD (activity.readOr Value.toInt64? "cycles_end" engine.render.stop)
  threads := o.threads.getD (activity.readOr Value.toInt32? "threads" engine.render.threads)
  style := if o.pretty || engine.render.pretty then .indented 2 else .compact

/-- What keeps the program from rendering anything. -/
inductive Obstacle
  /-- The engine settings cannot be loaded. -/
  | engine
  /-- The workload cannot be loaded. -/
  | workload (fault : WorkloadFault)
  /-- A parameter of the run is not of the form `key=value`. -/
  | params
  /-- An op makes no plan. -/
  | op (e : PlanError)
  /-- There is no op to render. -/
  | noOps
  deriving DecidableEq, Repr

/-- The exit code for an obstacle: `2` for wrong parameters, `1` for anything else. -/
def Obstacle.code : Obstacle → Nat
  | .params => 2
  | _ => 1

/-- The job of rendering the ops of `workload` that `o` selects. -/
def prepareWorkload (o : Options) (engine : Engine) (workload : Workload) : Except Obstacle Job :=
  match activityOf engine workload o.params with
  | none => .error .params
  | some activity => do
    let plans ← ((selectOps workload o.op).mapM fun op =>
      Plan.compile op activity [] Basics.catalog).mapError .op
    if plans.isEmpty then .error .noOps else pure (jobOf o engine activity plans)

/-- The engine settings of a document in `directory`, or the built-in ones where none is named. -/
def loadEngine? (directory : Directory) : Option Text → Option Engine
  | none => some {}
  | some path =>
    let (taken, state) := EngineState.initial.load (directory.find path)
    if taken then some state.engine else none

/-- The engine settings and the workload that `o` and `workload` name. Logging starts with the built-in settings and
starts again with those of the engine, and each time it makes the folders on the way to its file. -/
def load (directory : Directory) (workload : Text) (o : Options) : Except Obstacle (Engine × Workload) :=
  let directory := directory.makeWay ({} : LogSettings).file
  match loadEngine? directory o.engine with
  | none => .error .engine
  | some engine =>
    match Workload.ofDocument ((directory.makeWay engine.log.file).find workload) with
    | .error fault => .error (.workload fault)
    | .ok workload => .ok (engine, workload)

/-- The job of rendering the document `workload` of `directory`. -/
def prepare (directory : Directory) (workload : Text) (o : Options) : Except Obstacle Job := do
  let (engine, workload) ← load directory workload o
  prepareWorkload o engine workload

/-- Renders the document `workload` of `directory` on `machine`; an obstacle fails with its code. -/
def render (directory : Directory) (workload : Text) (o : Options) (machine : Machine) : Outcome :=
  match prepare directory workload o with
  | .error obstacle => .failure obstacle.code
  | .ok job => job.run machine

/-- Runs the program on `args`, with the documents of `directory`, on `machine`. -/
def run (directory : Directory) (args : List Text) (machine : Machine) : Outcome :=
  match Request.read args with
  | .error lines => ⟨2, [], lines ++ usage⟩
  | .ok .listFunctions => ⟨0, functionLines Basics.catalog, []⟩
  | .ok (.render workload o) => render directory workload o machine

end OpCycle.Cli
