import TaskMill.TaskFile.Schema
import TaskMill.Toml.Document
/-!
# TaskMill — reading task files

The text of a task file is TOML of a fixed shape. What is wrong with it is told
together with the file's path.
-/

namespace TaskMill.TaskFile

/-- What is wrong with a task file's text, as a fault of that file. -/
def unusable (file : Path) (detail : String) : Fault :=
  .configuration s!"{file.text}: {detail}" (some file)

/-- What is wrong at some place of a task file's text. -/
def malformed (file : Path) (detail : String) : Fault :=
  unusable file s!"TOML parse error: {detail}"

/-- A flaw of a text, as a fault of the file that holds it. -/
def flawed (file : Path) : Toml.Flaw → Fault
  | .malformed => malformed file "syntax"
  | .deepKey => unusable file "recursion limit\n"

/-- The task file that a TOML value denotes, for the file at `file`. -/
def ofTomlAt (v : Toml) (file : Path) : Except Fault TaskFile :=
  (ofToml v).mapError fun e => malformed file e.message

/-- The task file that a text denotes. -/
def parse (source : String) (file : Path) : Except Fault TaskFile := do
  let v ← (Toml.parse source).mapError (flawed file)
  ofTomlAt v file

end TaskMill.TaskFile
