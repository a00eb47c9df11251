import TaskMill.Event.Timestamp
import TaskMill.Failure
import TaskMill.Host
import TaskMill.Project
import TaskMill.TaskFile.Starter
/-!
# TaskMill — the workspace

The host as a command sees it, which also looks for task files, reads them and
can make a new one.
-/

namespace TaskMill

/-- A host with task files. -/
structure Workspace (σ : Type) extends Host σ where
  /-- The directory in which the command was given. -/
  workingDirectory : σ → Except SystemError Path
  /-- The text of a file. -/
  readText : σ → Path → Except SystemError String
  /-- Whether a path names a file. -/
  isFile : σ → Path → Bool
  /-- Makes a file where nothing is yet. -/
  createNew : σ → Path → Except SystemError Unit × σ
  /-- Writes a text to the file that has just been made. -/
  fillNew : σ → Path → String → Except SystemError Unit × σ
  /-- How much of what is let out late is out already. -/
  heard : σ → Nat
  /-- What is put on record with the event of a number. -/
  stamp : σ → Nat → EventId × Timestamp

namespace Workspace

variable {σ : Type}

/-- That there is no task file in a directory or above it. -/
def noTaskFile (directory : Path) : Failure :=
  .config s!"No {TaskFile.defaultName} found in {directory.text} or any parent directory"
    (some "Create one with `tend --init`, or pass --file")

/-- That the operating system refuses to tell the working directory. -/
def noDirectory (error : SystemError) : Failure :=
  .io s!"Cannot read current directory: {error.message}" none

/-- The task file to use: the one given, or else the one in the working
directory or its nearest ancestor that has one. -/
def locate (w : Workspace σ) (explicit : Option Path) (s : σ) : Except Failure Path :=
  match explicit with
  | some path => .ok path
  | none =>
    match w.workingDirectory s with
    | .error error => .error (noDirectory error)
    | .ok directory =>
      match discover (w.isFile s) directory with
      | some path => .ok path
      | none => .error (noTaskFile directory)

/-- The project of a task file. -/
def load (w : Workspace σ) (path : Path) (s : σ) : Except Fault Project :=
  Project.load (w.readText s) path

/-- What it means for a command that no new task file could be made. -/
def vacancyFault (path : Path) (error : SystemError) : Fault :=
  if error = .alreadyExists then
    .configuration s!"{path.text} already exists; refusing to overwrite it" (some path)
  else .io error "create task file" (some path)

/-- Makes a new task file, but never in the place of anything. If it cannot be
written to, it is left there with what has been written. -/
def writeStarter (w : Workspace σ) (path : Path) (s : σ) : Except Fault Unit × σ :=
  match w.createNew s path with
  | (.error error, t) => (.error (vacancyFault path error), t)
  | (.ok _, t) =>
    let (written, u) := w.fillNew t path TaskFile.starter
    (written.mapError fun error => .io error "write task file" (some path), u)

end Workspace

end TaskMill
