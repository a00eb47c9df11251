import TaskMill.TaskFile.Parse
/-!
# TaskMill — projects

A **project** is a task file that has been loaded and found free of faults,
with the directory that its paths are seen from. Loading looks for faults in a
fixed order: the text, the settings, the entries, the dependencies, and the
default task.
-/

namespace TaskMill

/-- A task file in use. -/
structure Project where
  /-- Where the task file is. -/
  path : Path
  /-- The directory that holds it. -/
  root : Path
  settings : Settings
  registry : Registry

namespace Project

/-- The directory that holds a file: its parent, or `.` if that is empty or
there is none. -/
def rootOf (path : Path) : Path :=
  match path.parent? with
  | some parent => if parent.text.isEmpty then ⟨"."⟩ else parent
  | none => ⟨"."⟩

/-- Fails if the default task does not exist. -/
def checkDefault (settings : Settings) (registry : Registry) : Except Fault Unit :=
  match settings.default with
  | some name => if registry.contains name then .ok () else .error (.unknownTask name none)
  | none => .ok ()

/-- The project of a task file that has been read. -/
def ofFile (file : TaskFile) (path : Path) : Except Fault Project := do
  file.settings.check path
  let registry ← file.toRegistry path
  registry.check
  checkDefault file.settings registry
  return ⟨path, rootOf path, file.settings, registry⟩

/-- The project of the task file at `path`, where `read` gives the text of a
file. -/
def load (read : Path → Except SystemError String) (path : Path) : Except Fault Project := do
  let source ← (read path).mapError fun e => Fault.io e "read task file" (some path)
  let file ← TaskFile.parse source path
  ofFile file path

/-- The task to perform: the requested one, or else the default. -/
def target (p : Project) (requested : Option String) : Except Fault String :=
  match requested.or p.settings.default with
  | some name => .ok name
  | none => .error .noTask

end Project

/-- Where a task file can be for a directory: in it, or in one of its ancestors,
the nearest first. -/
def taskFilesFor (start : Path) : List Path :=
  start.ancestors.map fun directory => directory.join ⟨TaskFile.defaultName⟩

/-- The task file in a directory or in its nearest ancestor that has one, where
`isFile` tells whether a path names a file. -/
def discover (isFile : Path → Bool) (start : Path) : Option Path :=
  (taskFilesFor start).find? isFile

end TaskMill
