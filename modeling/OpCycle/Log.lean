import OpCycle.Text.Basic

/-! # Log levels
How much is logged. Logging is started once and keeps its level until it is ended. -/

namespace OpCycle

/-- The least level that is logged. -/
inductive LogLevel
  /-- Everything. -/
  | trace
  /-- What helps to find faults. -/
  | debug
  /-- What happens. -/
  | info
  /-- What may go wrong. -/
  | warn
  /-- What goes wrong. -/
  | error
  /-- Nothing. -/
  | off
  deriving DecidableEq, Repr

namespace LogLevel

/-- The name of a level, as `LogLevel.ofName` reads it. -/
def label : LogLevel → Text
  | .trace => "trace"
  | .debug => "debug"
  | .info => "info"
  | .warn => "warn"
  | .error => "error"
  | .off => "off"

/-- All levels. -/
def all : List LogLevel := [.trace, .debug, .info, .warn, .error, .off]

/-- The level with a name; an unknown name stands for `info`. -/
def ofName (name : Text) : LogLevel := (all.find? fun level => level.label = name).getD .info

end LogLevel

/-- Whether logging was started, and at which level. -/
structure Logging where
  /-- The level in effect. -/
  level : Option LogLevel := none
  deriving DecidableEq, Repr

namespace Logging

/-- Starts logging at `level`; what is running goes on at the level that it has. -/
def start (logging : Logging) (level : LogLevel) : Logging := ⟨some (logging.level.getD level)⟩

/-- Ends logging. -/
def stop (_ : Logging) : Logging := ⟨none⟩

end Logging

end OpCycle
