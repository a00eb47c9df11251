import TaskMill.Graph.Basic
import TaskMill.Path
import TaskMill.SystemError
/-!
# TaskMill — faults

Everything that can keep a task file from being used or a run from finishing,
as a cause with what it needs to be told. `message` is the sentence, `code`
the stable name and `help` the advice that goes with it.
-/

namespace TaskMill

/-- A cause of failure. -/
inductive Fault where
  /-- Two tasks have one name. -/
  | duplicateTask (name : String)
  /-- A task was requested, or required by another one, that does not exist. -/
  | unknownTask (name : String) (requiredBy : Option String)
  /-- Tasks depend on each other in a circle; the first and the last name are
  the same. -/
  | cyclicDependency (cycle : List String)
  /-- No task was requested and none is the default. -/
  | noTask
  /-- A task's process ended badly: with a status, or by a signal. -/
  | taskFailed (task : String) (status : Option Int) (output : Option String)
  /-- A task's process took longer than it was allowed to. -/
  | taskTimedOut (task : String) (seconds : Nat)
  /-- The run was cancelled from outside, perhaps while a task was running. -/
  | cancelled (task : Option String)
  /-- A task file, or a task in it, makes no sense. -/
  | configuration (message : String) (path : Option Path)
  /-- The operating system refused something. -/
  | io (source : SystemError) (operation : String) (path : Option Path)
  deriving DecidableEq, Inhabited

namespace Fault

/-- The sentence that tells a fault. -/
def message : Fault → String
  | duplicateTask name => s!"Task '{name}' is defined more than once"
  | unknownTask name none => s!"Unknown task '{name}'"
  | unknownTask name (some parent) => s!"Unknown task '{name}' (required by '{parent}')"
  | cyclicDependency cycle => "Cyclic dependency: " ++ " -> ".intercalate cycle
  | noTask => "No task given and no default task configured"
  | taskFailed task none _ => s!"Task '{task}' was terminated by a signal"
  | taskFailed task (some status) _ => s!"Task '{task}' failed with exit status {status}"
  | taskTimedOut task seconds => s!"Task '{task}' timed out after {seconds} seconds"
  | cancelled none => "Cancelled"
  | cancelled (some task) => s!"Cancelled while running task '{task}'"
  | configuration message _ => s!"Configuration error: {message}"
  | io source operation _ => s!"I/O error during {operation}: {source.message}"

/-- The stable name of a kind of fault. -/
def code : Fault → String
  | duplicateTask .. => "tend::task::duplicate"
  | unknownTask .. => "tend::task::unknown"
  | cyclicDependency .. => "tend::task::cycle"
  | noTask => "tend::task::missing"
  | taskFailed .. => "tend::task::failed"
  | taskTimedOut .. => "tend::task::timeout"
  | cancelled .. => "tend::run::cancelled"
  | configuration .. => "tend::config::invalid"
  | io .. => "tend::io::error"

/-- What to do about a fault; for a failed task, what it printed. -/
def help : Fault → Option String
  | duplicateTask .. => some "Task names must be unique; rename or remove one of the definitions"
  | unknownTask .. => some "Run `tend --list` to see the available tasks"
  | cyclicDependency .. => some "Remove one of the dependencies on the cycle"
  | noTask => some "Pass a task name, or set `default` under [settings] in the task file"
  | taskFailed _ _ output => output
  | taskTimedOut .. => some "Raise `timeout_secs` for the task or pass a larger --timeout"
  | cancelled .. => none
  | configuration .. => none
  | io .. => none

/-- Whether a fault is a cancellation. -/
def isCancelled : Fault → Bool
  | cancelled _ => true
  | _ => false

/-- What is wrong with a graph of tasks, as a fault of the tasks. -/
def ofGraph : GraphFault → Fault
  | .cycle names => cyclicDependency names
  | .missing ((task, dep) :: _) => unknownTask dep (some task)
  | .missing [] => configuration "dependency check reported no missing task" none
  | .notFound name => unknownTask name none

end Fault

end TaskMill
