import TaskMill.Workspace
/-!
# TaskMill — surveys

A **survey** is what was seen of the real world before a command is carried
out: the working directory, the task files within reach, and when artifacts
were modified. A command that is carried out on a survey looks at nothing else,
and the text of the one file that it makes is kept for later.

A survey has no processes: to start one is refused as not implemented.
-/

namespace TaskMill

/-- What was seen of the world. -/
structure Survey where
  directory : Except SystemError Path
  /-- The paths that name files. -/
  files : List Path
  /-- The texts of files. -/
  texts : List (Path × Except SystemError String)
  /-- When what a path names was modified last, in nanoseconds. -/
  times : List (Path × Except SystemError Int)
  /-- Whether a new task file can be made. -/
  vacancy : Except SystemError Unit
  /-- Whether it can be written to. -/
  filling : Except SystemError Unit
  /-- The identifier of the first event. -/
  firstId : EventId
  /-- The time of the survey. -/
  instant : Timestamp
  /-- The text of the new task file. -/
  written : Option String

namespace Survey

/-- What was found out about a path; nothing is there if nobody looked. -/
def findingOf {α : Type} (findings : List (Path × Except SystemError α)) (path : Path) :
    Except SystemError α :=
  (findings.lookup path).getD (.error .notFound)

/-- Takes the text of the new task file. -/
def fillNew (s : Survey) (_path : Path) (text : String) : Except SystemError Unit × Survey :=
  (s.filling, { s with written := some text })

/-- A survey as a host without processes. -/
def host : Host Survey where
  elapse := id
  cancelled _ := false
  now _ := 0
  modified s path := findingOf s.times path
  perform s _ := (.error .notImplemented, s)

/-- A survey as a workspace. -/
def workspace : Workspace Survey where
  toHost := host
  workingDirectory := directory
  readText s path := findingOf s.texts path
  isFile s path := decide (path ∈ s.files)
  createNew s _ := (s.vacancy, s)
  fillNew := fillNew
  heard _ := 0
  stamp s n := (⟨s.firstId.value + BitVec.ofNat 128 n⟩, s.instant)

end Survey

end TaskMill
