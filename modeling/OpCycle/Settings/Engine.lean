import OpCycle.Document.Node
import OpCycle.Json.Printer

/-! # Engine settings
The settings of the program itself: logging, the defaults of rendering, and whether functions that are not
thread-safe may be called. A document that does not give valid settings changes nothing. -/

namespace OpCycle

/-- Where and how much to log. -/
structure LogSettings where
  /-- The name of the least level that is logged. -/
  level : Text := "info"
  /-- The log file. -/
  file : Text := "logs/cyclebind.log"
  /-- The size at which a log file is closed, in MiB. -/
  maxSize : Int32 := 10
  /-- The number of log files that are kept. -/
  maxFiles : Int32 := 5
  /-- Whether to log to the console as well. -/
  console : Bool := true
  deriving DecidableEq

/-- What to render unless something else is asked for. -/
structure RenderSettings where
  /-- The first cycle. -/
  start : Int64 := 0
  /-- The cycle after the last one. -/
  stop : Int64 := 10
  /-- The number of threads. -/
  threads : Int32 := 1
  /-- Whether to indent the output. -/
  pretty : Bool := false
  deriving DecidableEq

/-- The settings of the program. -/
structure Engine where
  /-- The version of the settings. -/
  version : Text := "1.0.0"
  /-- Where and how much to log. -/
  log : LogSettings := {}
  /-- What to render unless something else is asked for. -/
  render : RenderSettings := {}
  /-- Whether functions that are not thread-safe may be called. -/
  allowUnsafe : Bool := false
  deriving DecidableEq

namespace Engine

/-- The built-in settings stand in for settings that are not there. -/
instance : Inhabited Engine := ⟨{}⟩

/-- The settings can be worked with: at least one thread, cycles in order, and room for a log. -/
def Valid (e : Engine) : Prop :=
  1 ≤ e.render.threads ∧ e.render.start ≤ e.render.stop ∧ 1 ≤ e.log.maxSize ∧ 1 ≤ e.log.maxFiles

/-- Whether settings are valid is decided by their tests. -/
instance (e : Engine) : Decidable e.Valid :=
  inferInstanceAs (Decidable (_ ∧ _ ∧ _ ∧ _))

/-- The logging settings of the section `n`. -/
def readLog (n : Node) : Except NodeFault LogSettings := do
  let level ← n.textOr "level" "info"
  let file ← n.textOr "file" "logs/cyclebind.log"
  let maxSize ← n.int32Or "max_size_mb" 10
  let maxFiles ← n.int32Or "max_files" 5
  let console ← n.boolOr "console_enabled" true
  pure { level, file, maxSize, maxFiles, console }

/-- The rendering settings of the section `n`. -/
def readRender (n : Node) : Except NodeFault RenderSettings := do
  let start ← n.int64Or "cycles_start" 0
  let stop ← n.int64Or "cycles_end" 10
  let threads ← n.int32Or "threads" 1
  let pretty ← n.boolOr "pretty" false
  pure { start, stop, threads, pretty }

/-- Reads the section `key` as `read` does, or gives `default` where there is none. -/
def readSection {α : Type} (n : Node) (key : Text) (read : Node → Except NodeFault α) (default : α) :
    Except NodeFault α := do
  match ← n.entry key with
  | some found => read found
  | none => pure default

/-- The settings of a document; they stand in the section `engine` or at the top level. -/
def ofNode (root : Node) : Except NodeFault Engine := do
  let own ← root.entry "engine"
  let n := own.getD root
  let version ← n.textOr "version" "1.0.0"
  let log ← readSection n "logging" readLog {}
  let render ← readSection n "render" readRender {}
  let allowUnsafe ← readSection n "bindings" (·.boolOr "allow_unsafe_functions" false) false
  pure { version, log, render, allowUnsafe }

/-- The settings `e` as a JSON tree, without the console switch; keys are in byte order. -/
def toJson (e : Engine) : Json :=
  .object ⟨[
    ("bindings", .object ⟨[("allow_unsafe_functions", .bool e.allowUnsafe)]⟩),
    ("logging", .object ⟨[
      ("file", .string e.log.file),
      ("level", .string e.log.level),
      ("max_files", .signed e.log.maxFiles.toInt64),
      ("max_size_mb", .signed e.log.maxSize.toInt64)]⟩),
    ("render", .object ⟨[
      ("cycles_end", .signed e.render.stop),
      ("cycles_start", .signed e.render.start),
      ("pretty", .bool e.render.pretty),
      ("threads", .signed e.render.threads.toInt64)]⟩),
    ("version", .string e.version)]⟩

end Engine

/-- The settings in effect, and whether they come from a document. -/
structure EngineState where
  /-- The settings in effect. -/
  engine : Engine := {}
  /-- Whether a document was loaded. -/
  loaded : Bool := false
  deriving DecidableEq

namespace EngineState

/-- The state with the built-in settings stands in for one that is not there. -/
instance : Inhabited EngineState := ⟨{}⟩

/-- The built-in settings. -/
def initial : EngineState := {}

/-- Takes the settings of `document` if they are `Valid`; tells whether it did. -/
def load (s : EngineState) (document : Document) : Bool × EngineState :=
  match document.root.bind Engine.ofNode with
  | .error _ => (false, s)
  | .ok engine => if engine.Valid then (true, ⟨engine, true⟩) else (false, s)

/-- Takes the settings of a text that holds `tree`, or that is no well-formed document, by `load`. -/
def loadText (s : EngineState) (tree : Option Node) : Bool × EngineState :=
  s.load (tree.elim .malformed .tree)

/-- Goes back to `initial`. -/
def reset (_ : EngineState) : EngineState := initial

end EngineState

end OpCycle
