import TaskMill.Failure
import TaskMill.Listing
import TaskMill.Run.Basic
/-!
# TaskMill — answers

What a command that went well has to say, in words and as JSON.
-/

namespace TaskMill

/-- What a command that went well has to say. -/
inductive Answer where
  /-- A task file was made. -/
  | created (path : Path)
  /-- These are the tasks. -/
  | tasks (listed : List TaskSummary)
  /-- The task file is free of faults and declares so many tasks. -/
  | sound (path : Path) (count : Nat)
  /-- These tasks would be run, in order. -/
  | plan (listed : List TaskSummary)
  /-- The run ended well. -/
  | ran (report : Report)
  deriving DecidableEq, Inhabited

namespace Answer

/-- An answer in words. A run has said what it had to say in its events. -/
def text : Answer → String
  | created path => s!"Created {path.text}\n"
  | tasks listed => Listing.table listed
  | sound path count => s!"{path.text}: {count} tasks, no problems found\n"
  | plan listed => Listing.plan listed
  | ran _ => ""

/-- The content of an answer as JSON. -/
def json : Answer → Json
  | created path => .obj [("created", .str path.text)]
  | tasks listed => .arr (listed.map Listing.json)
  | sound path count => .obj [("path", .str path.text), ("tasks", .nat count)]
  | plan listed => .arr (listed.map Listing.json)
  | ran report => .obj [("target", .str report.target), ("executed", .strs report.executed),
      ("skipped", .strs report.skipped), ("duration_ms", .nat (clamp64 report.duration).toNat)]

end Answer

end TaskMill
