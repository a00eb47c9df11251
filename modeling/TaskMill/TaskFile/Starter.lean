/-!
# TaskMill — the starter task file

What a new task file says: four tasks over one tool, and which of them is
performed when none is requested.
-/

namespace TaskMill.TaskFile

/-- The lines of a new task file. -/
def starterLines : List String := [
  "# Tasks run with `tend <name>`; `tend` alone runs the default task.",
  "",
  "[settings]",
  "default = \"test\"",
  "",
  "[[task]]",
  "name = \"clean\"",
  "description = \"Remove build outputs\"",
  "command = \"cargo\"",
  "args = [\"clean\"]",
  "",
  "[[task]]",
  "name = \"test\"",
  "description = \"Run the test suite\"",
  "command = \"cargo\"",
  "args = [\"test\"]",
  "",
  "[[task]]",
  "name = \"expand\"",
  "description = \"Show macro-expanded source\"",
  "command = \"cargo\"",
  "args = [\"expand\"]",
  "",
  "[[task]]",
  "name = \"docs\"",
  "description = \"Build API documentation\"",
  "command = \"cargo\"",
  "args = [\"doc\", \"--no-deps\"]"]

/-- The text of a new task file. -/
def starter : String := String.join (starterLines.map (· ++ "\n"))

end TaskMill.TaskFile
