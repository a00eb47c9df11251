import TaskMill.Event.Basic
import TaskMill.Fault
import TaskMill.Host
import TaskMill.Task
import TaskMill.Word
/-!
# TaskMill — runs

The words in which a run is told: the options it takes, what it lets be known
while it goes on, and what became of each task.
-/

namespace TaskMill

/-- What holds for all tasks of a run. -/
structure RunOptions where
  /-- Whether the output of tasks is captured. -/
  capture : Bool
  /-- The directory that the paths of tasks are seen from. -/
  root : Path
  /-- How many milliseconds a task may take that does not set a limit itself. -/
  defaultTimeout : Option Nat
  /-- How many milliseconds a process may take to end when it is told to. -/
  grace : Nat
  deriving DecidableEq, Inhabited

namespace RunOptions

/-- How many milliseconds a process is given to end, where nothing else is
said. -/
def usualGrace : Nat := 3000

/-- Nothing captured and no limits. -/
def plain (root : Path) : RunOptions := ⟨false, root, none, usualGrace⟩

/-- Where a task's process works. -/
def directoryOf (o : RunOptions) (task : Task) : Path :=
  match task.directory with
  | some directory => o.root.join directory
  | none => o.root

/-- How many milliseconds a task may take. -/
def limitOf (o : RunOptions) (task : Task) : Option Nat :=
  task.timeout.or o.defaultTimeout

/-- What a task's process is started with. -/
def launch (o : RunOptions) (task : Task) (action : Action) : Launch where
  command := action.command
  args := action.args
  directory := o.directoryOf task
  capture := o.capture
  limit := o.limitOf task
  grace := o.grace

end RunOptions

-- ---------------------------------------------------------------------------
-- What becomes known
-- ---------------------------------------------------------------------------

/-- Something that a run lets out while it goes on. -/
inductive Emission where
  | event (event : Event)
  /-- What a process wrote to a stream that is not captured. -/
  | passed (stream : Stream) (bytes : List UInt8)
  deriving DecidableEq, Inhabited

/-- The event that an emission is. -/
def Emission.event? : Emission → Option Event
  | event e => some e
  | passed _ _ => none

/-- A number as a count of 64 bits; what does not fit becomes the greatest. -/
def clamp64 (n : Nat) : UInt64 :=
  UInt64.ofNat (min n (Word.count 64 - 1))

-- ---------------------------------------------------------------------------
-- What became of it
-- ---------------------------------------------------------------------------

/-- A process that ended by itself, and the lines that were captured. -/
structure Finished where
  status : ExitStatus
  stdout : List String
  stderr : List String
  deriving DecidableEq, Inhabited

/-- What became of a task that ended well. -/
inductive Outcome where
  /-- Its process ran and exited with success. -/
  | executed (name : String) (finished : Finished)
  /-- Its artifact is up to date. -/
  | skipped (name : String)
  /-- It had to be performed and has no action. -/
  | aggregate (name : String)
  deriving DecidableEq, Inhabited

namespace Outcome

/-- The task's name. -/
def name : Outcome → String
  | executed name _ => name
  | skipped name => name
  | aggregate name => name

/-- Whether the task's process ran. -/
def isExecuted : Outcome → Bool
  | executed .. => true
  | _ => false

/-- Whether the task was skipped. -/
def isSkipped : Outcome → Bool
  | skipped _ => true
  | _ => false

end Outcome

/-- What became of a run that ended well. -/
structure Report where
  target : String
  /-- What became of each task, in the order of the plan. -/
  outcomes : List Outcome
  /-- How many milliseconds the run took. -/
  duration : Nat
  deriving DecidableEq, Inhabited

namespace Report

/-- The tasks whose process ran, in order. -/
def executed (r : Report) : List String :=
  (r.outcomes.filter Outcome.isExecuted).map Outcome.name

/-- The tasks that were skipped, in order. -/
def skipped (r : Report) : List String :=
  (r.outcomes.filter Outcome.isSkipped).map Outcome.name

end Report

end TaskMill
