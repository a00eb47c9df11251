import TaskMill.LogLevel
import TaskMill.Path
/-!
# TaskMill — the command line

What a command line can ask for, and the ways in which it can fail to ask for
anything. Four **modes** look at the task file, or write a new one, without
running a task; a command line that asks for none of them runs one.
-/

namespace TaskMill

/-- What is to be done in place of a run. -/
inductive Mode where
  /-- List the tasks. -/
  | list
  /-- Look for faults in the task file. -/
  | check
  /-- Show the plan. -/
  | dryRun
  /-- Write a new task file. -/
  | init
  deriving DecidableEq, Inhabited

/-- A command line that has been understood. -/
structure CommandLine where
  /-- The requested task. -/
  task : Option String
  /-- Whether to list the tasks. -/
  list : Bool
  /-- Whether to look for faults in the task file. -/
  check : Bool
  /-- Whether to show the plan. -/
  dryRun : Bool
  /-- Whether to write a new task file. -/
  init : Bool
  /-- The task file to use. -/
  file : Option Path
  /-- From which level on log lines are shown. -/
  level : LogLevel
  /-- Whether to answer in JSON. -/
  json : Bool
  /-- Whether to capture the output of tasks. -/
  capture : Bool
  /-- How many seconds a task may take that does not set a limit itself. -/
  timeout : Option UInt64
  /-- Whether the ends of tasks and runs are told. -/
  verbose : Bool
  deriving DecidableEq, Inhabited

/-- Why a command line is not carried out. -/
inductive Misuse where
  /-- An option that does not exist, or one task too many. -/
  | unknown
  /-- A value that is missing, empty, or none of the choices. -/
  | badValue
  /-- A value that is no number, or one out of range. -/
  | badNumber
  /-- A value for an option that takes none. -/
  | unwantedValue
  /-- An option given twice, or two that exclude each other. -/
  | conflict
  /-- The options are to be explained. -/
  | help
  /-- The version is to be told. -/
  | version
  deriving DecidableEq, Inhabited

namespace CommandLine

/-- A command line without arguments. -/
def plain : CommandLine :=
  ⟨none, false, false, false, false, none, .warn, false, false, none, false⟩

/-- Whether a mode is asked for. -/
def asksFor (c : CommandLine) : Mode → Bool
  | .list => c.list
  | .check => c.check
  | .dryRun => c.dryRun
  | .init => c.init

/-- What is done in place of a run: of the modes asked for, the one that is looked
at first. -/
def mode (c : CommandLine) : Option Mode :=
  [.init, .list, .check, .dryRun].find? c.asksFor

theorem mode_eq (c : CommandLine) : c.mode =
    if c.init then some .init
    else if c.list then some .list
    else if c.check then some .check
    else if c.dryRun then some .dryRun
    else none := by
  simp only [mode, List.find?_cons, List.find?_nil, asksFor]
  cases c.init <;> cases c.list <;> cases c.check <;> cases c.dryRun <;> rfl

theorem mode_eq_init_iff {c : CommandLine} : c.mode = some .init ↔ c.init = true := by
  rw [mode_eq]
  cases c.init <;> cases c.list <;> cases c.check <;> cases c.dryRun <;> simp

/-- The name and the version of the program. -/
def versionText : String := "tend 0.1.0\n"

/-- The options, explained. -/
def helpText : String := String.join ([
  "Run named tasks and their dependencies, in order",
  "",
  "Usage: tend [OPTIONS] [TASK]",
  "",
  "Arguments:",
  "  [TASK]  Task to run; defaults to `settings.default` from the task file",
  "",
  "Options:",
  "      --list            List the declared tasks",
  "      --check           Validate the task file and exit",
  "  -n, --dry-run         Print the tasks that would run, in order, without running them",
  "      --init            Write a starter tend.toml to the current directory",
  "  -f, --file <PATH>     Task file to use instead of searching for tend.toml",
  "  -L, --level <LEVEL>   Set logging level [default: warn] " ++
    "[possible values: trace, debug, info, warn, error]",
  "      --json            Emit JSON events and envelopes",
  "      --capture         Capture task output and stream it as events",
  "      --timeout <SECS>  Timeout in seconds for tasks that do not set their own",
  "  -v, --verbose         Show task completion lines",
  "  -h, --help            Print help",
  "  -V, --version         Print version"].map (· ++ "\n"))

end CommandLine

end TaskMill
