/-!
# TaskMill — events

What a run tells while it goes on. A **task event** follows a single task, a
**run event** the run as a whole. Each kind is told on a channel of its own,
named by a *target*; other targets carry ordinary log lines.
-/

namespace TaskMill

/-- One of the two streams a process writes to. -/
inductive Stream where
  | stdout
  | stderr
  deriving DecidableEq, Inhabited

/-- The name of a stream. -/
def Stream.name : Stream → String
  | stdout => "stdout"
  | stderr => "stderr"

/-- The stream with a name. -/
def Stream.ofName? (name : String) : Option Stream :=
  if name = "stdout" then some .stdout else if name = "stderr" then some .stderr else none

/-- Every stream is found by its name. -/
@[simp] theorem Stream.ofName?_name (s : Stream) : Stream.ofName? s.name = some s := by
  cases s <;> simp [ofName?, name]

/-- What happens to a single task. -/
inductive TaskEvent where
  /-- The process is about to start. -/
  | started (name command : String)
  /-- The task needs no process. -/
  | skipped (name reason : String)
  /-- The process wrote a line. -/
  | output (name : String) (stream : Stream) (content : String)
  /-- The process ended by itself; without exit code if by a signal. -/
  | completed (name : String) (success : Bool) (exitCode : Option Int32) (durationMs : UInt64)
  /-- The process was ended because it took too long. -/
  | timedOut (name : String) (timeoutSecs : UInt64)
  deriving DecidableEq, Inhabited

/-- What happens to a run. -/
inductive RunEvent where
  /-- The tasks that may have to be performed are known. -/
  | planned (target : String) (taskCount : UInt64)
  /-- The run is over. -/
  | completed (target : String) (success : Bool) (durationMs : UInt64)
  /-- The run was cancelled from outside, perhaps while a task was running. -/
  | cancelled (target : String) (task : Option String)
  deriving DecidableEq, Inhabited

/-- Something that happens in a run. -/
inductive Event where
  | task (event : TaskEvent)
  | run (event : RunEvent)
  deriving DecidableEq, Inhabited

namespace Event

/-- The target of task events. -/
def taskTarget : String := "tend::task"

/-- The target of run events. -/
def runTarget : String := "tend::run"

/-- Whether a target carries events; names that only begin like one do not. -/
def isTarget (target : String) : Bool :=
  target = taskTarget || target = runTarget

/-- The target an event belongs to. -/
def target : Event → String
  | task _ => taskTarget
  | run _ => runTarget

end Event

/-- An event and the target it was seen on. -/
structure SourcedEvent where
  target : String
  event : Event
  deriving DecidableEq, Inhabited

end TaskMill
