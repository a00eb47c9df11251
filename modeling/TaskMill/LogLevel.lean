import TaskMill.Event.Basic
/-!
# TaskMill — log levels

How grave a log line is, and which log lines are shown. Events are never shown
as log lines, whatever their level: they are told on the terminal in their own
way.
-/

namespace TaskMill

/-- How grave a log line is, the least grave first. -/
inductive LogLevel where
  | trace
  | debug
  | info
  | warn
  | error
  deriving DecidableEq, Inhabited

namespace LogLevel

/-- The name of a level. -/
def name : LogLevel → String
  | trace => "trace"
  | debug => "debug"
  | info => "info"
  | warn => "warn"
  | error => "error"

/-- All levels, the least grave first. -/
def all : List LogLevel := [trace, debug, info, warn, error]

/-- The level with a name. -/
def ofName? (name : String) : Option LogLevel :=
  all.find? (·.name = name)

/-- Every level is found by its name. -/
@[simp] theorem ofName?_name (level : LogLevel) : ofName? level.name = some level := by
  cases level <;> decide

/-- Levels as numbers, the gravest highest. -/
def gravity : LogLevel → Nat
  | trace => 0
  | debug => 1
  | info => 2
  | warn => 3
  | error => 4

/-- Whether a line of a level on a target is shown from `threshold` on. -/
def shows (threshold : LogLevel) (target : String) (level : LogLevel) : Bool :=
  threshold.gravity ≤ level.gravity && !Event.isTarget target

end LogLevel

end TaskMill
