import TaskMill.Registry
/-!
# TaskMill — task files

A **task file** declares tasks and a few settings. An entry becomes a task only
if it makes sense: it has a name, its phony flag agrees with its artifact, it
has no arguments without a command, and no limit of zero seconds. A file whose
entries all make sense and have distinct names becomes a registry, in the order
of its entries.
-/

namespace TaskMill

/-- What holds for a whole task file. -/
structure Settings where
  /-- The task to perform when none is requested. -/
  default : Option String
  /-- How many seconds a task may take that does not set a limit itself. -/
  timeoutSecs : Option UInt64
  /-- Whether the output of tasks is captured. -/
  captureOutput : Option Bool
  deriving DecidableEq, Inhabited

/-- The declaration of a task, as it stands in the file. -/
structure TaskEntry where
  name : String
  description : Option String
  phony : Option Bool
  artifact : Option Path
  dependsOn : List String
  command : Option String
  args : List String
  directory : Option Path
  timeoutSecs : Option UInt64
  deriving DecidableEq, Inhabited

/-- Settings and declarations, in file order. -/
structure TaskFile where
  settings : Settings
  tasks : List TaskEntry
  deriving DecidableEq, Inhabited

/-- The name of a task file, where none is given. -/
def TaskFile.defaultName : String := "tend.toml"

namespace Settings

/-- No settings. -/
def none : Settings := ⟨.none, .none, .none⟩

/-- Fails for a limit of zero seconds. -/
def check (s : Settings) (file : Path) : Except Fault Unit :=
  if s.timeoutSecs = some 0 then
    .error (.configuration "settings.timeout_secs must be at least 1" (some file))
  else .ok ()

/-- How many milliseconds a task may take that does not set a limit itself. -/
def defaultTimeout (s : Settings) : Option Nat :=
  s.timeoutSecs.map fun secs => secs.toNat * 1000

end Settings

namespace TaskEntry

/-- A declaration of nothing but a name. -/
def named (name : String) : TaskEntry :=
  ⟨name, none, none, none, [], none, [], none, none⟩

/-- The kind of task that an entry declares, if its phony flag agrees with its
artifact. -/
def kind? (e : TaskEntry) : Except String TaskKind :=
  match e.phony, e.artifact with
  | some true, some _ => .error s!"task '{e.name}' is phony but declares an artifact"
  | some false, none => .error s!"task '{e.name}' is not phony but declares no artifact"
  | _, some path => .ok (.artifact path)
  | _, none => .ok .phony

/-- The action that an entry declares, if it is complete. -/
def action? (e : TaskEntry) : Except String (Option Action) :=
  match e.command with
  | some command =>
    if Text.isBlankText command then .error s!"task '{e.name}' has an empty command"
    else .ok (some ⟨command, e.args⟩)
  | none => if e.args.isEmpty then .ok none else .error s!"task '{e.name}' has args but no command"

/-- The limit that an entry declares, in milliseconds, if there is time at
all. -/
def timeout? (e : TaskEntry) : Except String (Option Nat) :=
  match e.timeoutSecs with
  | some secs =>
    if secs = 0 then .error s!"task '{e.name}' has a zero timeout"
    else .ok (some (secs.toNat * 1000))
  | none => .ok none

/-- The task that an entry declares, or what is wrong with the entry. -/
def taskOrProblem (e : TaskEntry) : Except String Task := do
  if Text.isBlankText e.name then throw "task name must not be empty"
  let kind ← e.kind?
  let action ← e.action?
  let timeout ← e.timeout?
  return {
    name := e.name
    kind := kind
    dependsOn := e.dependsOn
    action := action
    description := e.description
    directory := e.directory
    timeout := timeout }

/-- The task that an entry declares. -/
def toTask (e : TaskEntry) (file : Path) : Except Fault Task :=
  e.taskOrProblem.mapError fun problem => .configuration problem (some file)

end TaskEntry

namespace TaskFile

/-- A file that says nothing. -/
def empty : TaskFile := ⟨.none, []⟩

/-- The registry of all declared tasks; the first entry that makes no sense, or
repeats a name, decides what is wrong. -/
def toRegistry (f : TaskFile) (file : Path) : Except Fault Registry :=
  f.tasks.foldlM (fun r entry => do r.register (← entry.toTask file)) .empty

end TaskFile

end TaskMill
