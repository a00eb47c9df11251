import TaskMill.Graph.Basic
import TaskMill.Path
import TaskMill.Text.Blank
import TaskMill.Text.Quoted
/-!
# TaskMill — tasks

A **task** is a named unit of work: an action to perform, the tasks that must
come first, and either a file it produces (an *artifact* task) or none (a
*phony* task). A task without an action only pulls in what it depends on; it is
called an *aggregate*.
-/

namespace TaskMill

/-- Whether a task produces a file. -/
inductive TaskKind where
  /-- Nothing is produced; the task is performed whenever it is requested. -/
  | phony
  /-- The task produces the file at `path`. -/
  | artifact (path : Path)
  deriving DecidableEq, Inhabited

/-- The file that a kind of task produces. -/
def TaskKind.artifact? : TaskKind → Option Path
  | phony => none
  | artifact path => some path

/-- A program and its arguments, passed on as they are. -/
structure Action where
  command : String
  args : List String
  deriving DecidableEq, Inhabited

/-- How an argument is shown: in quotes if it is empty or holds white space, as
it is otherwise. -/
def Action.shownArg (arg : String) : String :=
  if arg.isEmpty || Text.hasBlank arg then Text.quoted arg else arg

/-- The command and its arguments on one line. -/
def Action.line (action : Action) : String :=
  action.args.foldl (fun line arg => line ++ " " ++ shownArg arg) action.command

/-- A named unit of work. -/
structure Task where
  name : String
  kind : TaskKind
  /-- The tasks that must come first, in declared order. -/
  dependsOn : List String
  action : Option Action
  description : Option String
  /-- Where the action is performed, seen from the directory of the task
  file. -/
  directory : Option Path
  /-- How many milliseconds the action may take. -/
  timeout : Option Nat
  deriving DecidableEq, Inhabited

namespace Task

/-- A phony task with nothing to do. -/
def phony (name : String) : Task :=
  ⟨name, .phony, [], none, none, none, none⟩

/-- Whether the task produces no file. -/
def isPhony (t : Task) : Bool :=
  t.kind.artifact?.isNone

/-- Whether the task stands only for what it depends on: it produces no file
and has no action. -/
def isAggregate (t : Task) : Bool :=
  t.isPhony && t.action.isNone

/-- The task's command line; empty without an action. -/
def commandLine (t : Task) : String :=
  (t.action.map Action.line).getD ""

instance : Dependent Task := ⟨Task.dependsOn⟩

end Task

end TaskMill
