import TaskMill.Rehearsal.Machine
import TaskMill.Workspace
/-!
# TaskMill — a machine as a workspace

A machine that also reads task files and makes new ones, so that whole commands
can be rehearsed. Events are numbered in place of identifiers, and all happen
at the same instant.
-/

namespace TaskMill.Machine

/-- A path for the place of the working directory. -/
def homePath (m : Machine) : Path :=
  ⟨"/" ++ "/".intercalate m.home⟩

/-- Makes a file where nothing is yet. -/
def createNew (m : Machine) (path : Path) : Except SystemError Unit × Machine :=
  match m.files.createNew (instantAfter m.started) m.home path with
  | .ok files => (.ok (), { m with files })
  | .error error => (.error error, m)

/-- Writes a text to the file that a path names. -/
def fillNew (m : Machine) (path : Path) (text : String) : Except SystemError Unit × Machine :=
  match m.files.filePlace m.home path with
  | .ok (place, _) =>
    let (written, files) := m.files.write (instantAfter m.started) place (Text.encode text)
    (written, { m with files })
  | .error error => (.error error, m)

/-- The machine as a workspace. -/
def workspace : Workspace Machine where
  toHost := host
  workingDirectory m := .ok m.homePath
  readText m path := m.files.readText m.home path
  isFile m path := m.files.isFile m.home path
  createNew := createNew
  fillNew := fillNew
  heard _ := 0
  stamp _ n := (⟨BitVec.ofNat 128 n⟩, default)

end TaskMill.Machine
