import TaskMill.Json.Basic
import TaskMill.Task
import TaskMill.Text.Blank
/-!
# TaskMill — lists of tasks

Tasks as they are listed: a table with one line per task, a numbered plan, and
JSON. The names in the table stand in a column as wide as the longest of them
in bytes.
-/

namespace TaskMill

/-- What a list shows of a task. -/
structure TaskSummary where
  name : String
  phony : Bool
  artifact : Option Path
  dependsOn : List String
  /-- The command line; empty without an action. -/
  command : String
  description : Option String
  deriving DecidableEq, Inhabited

/-- What a list shows of a task. -/
def Task.summary (t : Task) : TaskSummary :=
  { name := t.name
    phony := t.isPhony
    artifact := t.kind.artifact?
    dependsOn := t.dependsOn
    command := t.commandLine
    description := t.description }

namespace Listing

/-- The width of the column of names. -/
def width (tasks : List TaskSummary) : Nat :=
  (tasks.map fun task => task.name.utf8ByteSize).foldl max 0

/-- A text followed by as many spaces as it lacks of `width` characters. There is no
limit to the width here; a formatter that keeps widths in sixteen bits refuses those
above 65535. -/
def padded (width : Nat) (s : String) : String :=
  s ++ String.ofList (List.replicate (width - s.length) ' ')

/-- The eight characters that tell the kind of a task. -/
def marker (task : TaskSummary) : String :=
  if task.phony then "phony   " else "artifact"

/-- The line of a task in a table whose names are `width` wide: name, kind, the
description or else the command, and the dependencies. -/
def line (width : Nat) (task : TaskSummary) : String :=
  let about := task.description.getD task.command
  let deps := ", ".intercalate task.dependsOn
  Text.trimEnd (padded width task.name ++ "  " ++ marker task
    ++ (if about.isEmpty then "" else "  " ++ about)
    ++ (if task.dependsOn.isEmpty then "" else s!"  (depends on: {deps})"))

/-- The table of tasks. -/
def table (tasks : List TaskSummary) : String :=
  String.join (tasks.map fun task => line (width tasks) task ++ "\n")

/-- The line of a task in a numbered plan: its command, and the artifact that
may spare it. -/
def step (number : Nat) (task : TaskSummary) : String :=
  let command := if task.command.isEmpty then "(no command)" else task.command
  let note := (task.artifact.map fun path => s!"  [skipped if {path.text} is up to date]").getD ""
  s!"{number}. {task.name}: {command}{note}\n"

/-- A numbered plan. -/
def plan (tasks : List TaskSummary) : String :=
  String.join (tasks.zipIdx.map fun (task, i) => step (i + 1) task)

/-- A listed task as JSON; what it does not have is left out. -/
def json (task : TaskSummary) : Json :=
  .obj ([("name", .str task.name), ("phony", .bool task.phony)]
    ++ (task.artifact.map fun path => ("artifact", Json.str path.text)).toList
    ++ [("depends_on", .strs task.dependsOn), ("command", .str task.command)]
    ++ (task.description.map fun text => ("description", Json.str text)).toList)

end Listing

end TaskMill
